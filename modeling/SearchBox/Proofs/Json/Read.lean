import SearchBox.Proofs.Json.Token

/-!
  SearchBox.Proofs.Json.Read — values of JSON documents are read one after another, each from
  its own text. What is read as a value is a piece of text that is read as this value wherever
  it stands (`exists_spells`), so a document is such a piece with white space around it
  (`read_eq_ok_iff`), and one that is followed by anything else is none (`read_of_spells`). Lists
  and mappings differ only in their brackets (`IsBracket`) and in their members (`SpellsMember`).
-/

namespace SearchBox.Json

open SearchBox.Text

/-! ## White space -/

def IsGapText (gap : List Char) : Prop :=
  ∀ c ∈ gap, isGap c = true

theorem isGapText_nil : IsGapText [] :=
  nofun

theorem exists_gap (s : List Char) : ∃ gap, IsGapText gap ∧ s = gap ++ skipGap s :=
  ⟨s.takeWhile isGap, fun _ => List.mem_takeWhile_imp, List.takeWhile_append_dropWhile.symm⟩

theorem skipGap_append {gap u : List Char} (hgap : IsGapText gap) (hu : ∀ c ∈ u.head?, isGap c = false) :
    skipGap (gap ++ u) = u :=
  dropWhile_run hgap hu

theorem isBlank_of_isGap {c : Char} (h : isGap c = true) : isBlank c = true := by
  simp only [isGap, Bool.or_eq_true, decide_eq_true_eq] at h
  rcases h with ((rfl | rfl) | rfl) | rfl <;> decide

theorem isGap_eq_false_of_isBlank {c : Char} (h : isBlank c = false) : isGap c = false := by
  cases hc : isGap c with
  | false => rfl
  | true => rw [isBlank_of_isGap hc] at h; cases h

theorem IsGapText.mayFollow {gap : List Char} (h : IsGapText gap) {u : List Char} (hu : MayFollow u) :
    MayFollow (gap ++ u) := by
  cases gap with
  | nil => exact hu
  | cons c gap =>
    intro d hd
    cases hd
    simp [isBlank_of_isGap (h c List.mem_cons_self)]

/-! ## Pieces of documents -/

/-- What documents consist of: white space and characters that are no control characters. -/
def IsWritten (piece : List Char) : Prop :=
  ∀ c ∈ piece, 32 ≤ c.toNat ∨ isGap c = true

theorem IsWritten.append {a b : List Char} (ha : IsWritten a) (hb : IsWritten b) : IsWritten (a ++ b) :=
  fun c hc => (List.mem_append.1 hc).elim (ha c) (hb c)

theorem IsWritten.cons {c : Char} {piece : List Char} (h : IsWritten piece) (hc : 32 ≤ c.toNat) : IsWritten (c :: piece) :=
  List.forall_mem_cons.2 ⟨.inl hc, h⟩

theorem IsGapText.isWritten {gap : List Char} (h : IsGapText gap) : IsWritten gap :=
  fun c hc => .inr (h c hc)

/-- A piece of text that is read as a value wherever it stands. -/
structure Spells (piece : List Char) (v : Value) : Prop where
  edged : IsEdged piece
  written : IsWritten piece
  reads : ∀ fuel u, 2 * piece.length < fuel → MayFollow u → readValue fuel (piece ++ u) = .ok (v, u)

/-- Values, one after another up to a closing bracket, are read by these readers. -/
abbrev InsideReader (α : Type) : Type :=
  Nat → List Char → Except ReadError (List α × List Char)

/-- The inside of a list or a mapping with its closing bracket, read wherever it stands. -/
structure SpellsInside {α : Type} (reader : InsideReader α) (close : Char) (piece : List Char) (inside : List α) : Prop where
  head : ∃ c ∈ piece.head?, isBlank c = false ∧ c ≠ close
  last : piece.getLast? = some close
  written : IsWritten piece
  reads : ∀ fuel u, 2 * piece.length + 1 < fuel → reader fuel (piece ++ u) = .ok (inside, u)

theorem readValue_of_head {s : List Char} (h : ∀ c ∈ s.head?, c ≠ '[' ∧ c ≠ '\x7b') (fuel : Nat) :
    readValue (fuel + 1) s = readScalar s := by
  rw [readValue]
  · rintro _ rfl
    exact (h _ rfl).1 rfl
  · rintro _ rfl
    exact (h _ rfl).2 rfl

/-- No value starts with a closing bracket or a byte order mark. -/
theorem Spells.head_ne {piece : List Char} {v : Value} (h : Spells piece v) : ∀ c ∈ piece.head?, c ≠ ']' ∧ c ≠ '\ufeff' := by
  have hnone : ∀ c, c ∈ piece.head? → c = ']' ∨ c = '\ufeff' → False := by
    intro c hc heq
    obtain ⟨tail, rfl⟩ := List.head?_eq_some_iff.1 hc
    have hread := h.reads (2 * (c :: tail).length + 1) [] (by omega) nofun
    rw [List.append_nil, readValue_of_head (s := c :: tail)] at hread
    · rcases heq with rfl | rfl <;> cases hread
    · rcases heq with rfl | rfl <;> simp
  exact fun c hc => ⟨fun heq => hnone c hc (.inl heq), fun heq => hnone c hc (.inr heq)⟩

theorem Spells.head_append {piece : List Char} {v : Value} (h : Spells piece v) (u : List Char) :
    ∀ c ∈ (piece ++ u).head?, isGap c = false := by
  obtain ⟨⟨c, hc, hvisible⟩, -⟩ := h.edged
  obtain ⟨tail, rfl⟩ := List.head?_eq_some_iff.1 hc
  simp [isGap_eq_false_of_isBlank hvisible]

section SpellsInside

variable {α : Type} {reader : InsideReader α} {close : Char} {piece : List Char} {inside : List α}
  (h : SpellsInside reader close piece inside)
include h

/-- White space in front is passed over, and what follows does not close the bracket. -/
theorem SpellsInside.skipGap_eq {gap : List Char} (hgap : IsGapText gap) (u : List Char) :
    skipGap (gap ++ (piece ++ u)) = piece ++ u ∧ close ∉ (piece ++ u).head? := by
  obtain ⟨c, hc, hvisible, hclose⟩ := h.head
  obtain ⟨tail, rfl⟩ := List.head?_eq_some_iff.1 hc
  refine ⟨skipGap_append hgap (by simp [isGap_eq_false_of_isBlank hvisible]), ?_⟩
  simpa using hclose

theorem SpellsInside.getLast?_append (front : List Char) : (front ++ piece).getLast? = some close := by
  rw [List.getLast?_append, h.last]
  rfl

end SpellsInside

theorem exists_spells_of_readScalar {s rest : List Char} {v : Value} (h : readScalar s = .ok (v, rest))
    (hhead : ∀ c ∈ s.head?, c ≠ '[' ∧ c ≠ '\x7b') : ∃ piece, s = piece ++ rest ∧ Spells piece v := by
  obtain ⟨piece, rfl, hedged, hwritten, hread⟩ := readScalar_spells h
  refine ⟨piece, rfl, hedged, fun c hc => .inl (hwritten c hc), fun fuel u hfuel hu => ?_⟩
  obtain ⟨fuel, rfl⟩ : ∃ f, fuel = f + 1 := ⟨fuel - 1, by omega⟩
  obtain ⟨⟨c, hc, -⟩, -⟩ := hedged
  obtain ⟨piece, rfl⟩ := List.head?_eq_some_iff.1 hc
  rw [← hread u hu]
  exact readValue_of_head (s := c :: piece ++ u) hhead fuel

/-- What a reader of lists or mappings reads, with this fuel, are pieces of text that spell it. -/
def ReadsInside {α : Type} (reader : InsideReader α) (close : Char) (fuel : Nat) : Prop :=
  ∀ s inside rest, reader fuel s = .ok (inside, rest) → ∃ piece, s = piece ++ rest ∧ SpellsInside reader close piece inside

/-! ## Brackets -/

def IsClosing (c : Char) : Prop :=
  c = ']' ∨ c = '\x7d'

theorem IsClosing.visible {c : Char} (h : IsClosing c) : isBlank c = false ∧ 32 ≤ c.toNat ∧ c ≠ ',' := by
  rcases h with rfl | rfl <;> decide

theorem mayFollow_cons {c : Char} (hc : (isBlank c || c = ',' || c = ']' || c = '\x7d') = true) (u : List Char) :
    MayFollow (c :: u) := by
  intro d hd
  cases hd
  exact hc

theorem IsClosing.mayFollow {c : Char} (h : IsClosing c) (u : List Char) : MayFollow (c :: u) := by
  rcases h with rfl | rfl
  · exact mayFollow_cons (by decide) u
  · exact mayFollow_cons (by decide) u

/-- White space is passed over in front of a sign. -/
theorem skipGap_sign {gap : List Char} (hgap : IsGapText gap) {c : Char} (hc : isBlank c = false) (u : List Char) :
    skipGap (gap ++ c :: u) = c :: u :=
  skipGap_append hgap (by simp [isGap_eq_false_of_isBlank hc])

/-- Between these brackets stands what the reader reads, or nothing. -/
structure IsBracket {α : Type} (start close : Char) (reader : InsideReader α) (toValue : List α → Value) : Prop where
  starts : isBlank start = false ∧ 32 ≤ start.toNat
  closes : IsClosing close
  empty : ∀ fuel s after, skipGap s = close :: after → readValue (fuel + 1) (start :: s) = .ok (toValue [], after)
  inside : ∀ fuel s, close ∉ (skipGap s).head? →
    readValue (fuel + 1) (start :: s) = (reader fuel (skipGap s) >>= fun found => pure (toValue found.1, found.2))

theorem isBracket_list : IsBracket '[' ']' readItems .list where
  starts := by decide
  closes := .inl rfl
  empty fuel s after h := by
    rw [readValue, h]
    rfl
  inside fuel s h := by
    rw [readValue]
    split
    · rename_i hskip
      exact absurd (by rw [hskip]; rfl) h
    · rfl

theorem isBracket_dict : IsBracket '\x7b' '\x7d' readEntries fun writes => .dict (Entries.ofWrites writes) where
  starts := by decide
  closes := .inr rfl
  empty fuel s after h := by
    rw [readValue, h]
    rfl
  inside fuel s h := by
    rw [readValue]
    split
    · rename_i hskip
      exact absurd (by rw [hskip]; rfl) h
    · rfl

namespace IsBracket

variable {α : Type} {start close : Char} {reader : InsideReader α} {toValue : List α → Value} {gap piece : List Char}
  (hb : IsBracket start close reader toValue)
include hb

theorem spells_empty (hgap : IsGapText gap) : Spells (start :: (gap ++ [close])) (toValue []) where
  edged := ⟨⟨start, rfl, hb.starts.1⟩, close, List.getLast?_concat (l := start :: gap), hb.closes.visible.1⟩
  written := (hgap.isWritten.append (by simp [IsWritten, hb.closes.visible.2.1])).cons hb.starts.2
  reads fuel u hfuel _ := by
    obtain ⟨fuel, rfl⟩ : ∃ f, fuel = f + 1 := ⟨fuel - 1, by omega⟩
    rw [List.cons_append, List.append_assoc]
    exact hb.empty fuel _ u (skipGap_sign hgap hb.closes.visible.1 u)

theorem spells (hgap : IsGapText gap) {inside : List α} (h : SpellsInside reader close piece inside) :
    Spells (start :: (gap ++ piece)) (toValue inside) where
  edged := ⟨⟨start, rfl, hb.starts.1⟩, close, h.getLast?_append (start :: gap), hb.closes.visible.1⟩
  written := (hgap.isWritten.append h.written).cons hb.starts.2
  reads fuel u hfuel _ := by
    obtain ⟨fuel, rfl⟩ : ∃ f, fuel = f + 1 := ⟨fuel - 1, by omega⟩
    obtain ⟨hskip, hclose⟩ := h.skipGap_eq hgap u
    rw [List.cons_append, List.append_assoc, hb.inside fuel _ (by rwa [hskip]), hskip,
      h.reads fuel u (by simp at hfuel; omega)]
    rfl

theorem exists_spells {fuel : Nat} (hreads : ReadsInside reader close fuel) {s rest : List Char} {v : Value}
    (h : readValue (fuel + 1) (start :: s) = .ok (v, rest)) : ∃ piece, start :: s = piece ++ rest ∧ Spells piece v := by
  obtain ⟨gap, hgap, hs⟩ := exists_gap s
  by_cases hclose : close ∈ (skipGap s).head?
  · obtain ⟨after, hskip⟩ := List.head?_eq_some_iff.1 hclose
    rw [hb.empty fuel s after hskip] at h
    cases h
    refine ⟨_, ?_, hb.spells_empty hgap⟩
    rw [hs, hskip]
    simp
  · rw [hb.inside fuel s hclose] at h
    obtain ⟨⟨inside, after⟩, hinside, h⟩ := bind_eq_ok.1 h
    cases h
    obtain ⟨piece, hpiece, hspells⟩ := hreads _ _ _ hinside
    refine ⟨_, ?_, hb.spells hgap hspells⟩
    rw [hs, hpiece]
    simp

end IsBracket

/-! ## Members -/

/-- What is left to read after a member: the closing bracket, or a comma and more members. -/
def readMore {α : Type} (reader : InsideReader α) (close : Char) (fuel : Nat) (m : α) (rest : List Char) :
    Except ReadError (List α × List Char) :=
  match skipGap rest with
  | [] => throw .expectingComma
  | c :: after =>
    if c = close then return ([m], after)
    else if c = ',' then reader fuel (skipGap after) >>= fun found => return (m :: found.1, found.2)
    else throw .expectingComma

section ReadMore

variable {α : Type} {reader : InsideReader α} {close : Char} {fuel : Nat} {m : α} {rest after : List Char}

theorem readMore_close (h : skipGap rest = close :: after) : readMore reader close fuel m rest = .ok ([m], after) := by
  rw [readMore, h]
  dsimp only
  rw [if_pos rfl]
  rfl

theorem readMore_comma (hclose : close ≠ ',') (h : skipGap rest = ',' :: after) :
    readMore reader close fuel m rest = (reader fuel (skipGap after) >>= fun found => .ok (m :: found.1, found.2)) := by
  rw [readMore, h]
  dsimp only
  rw [if_neg hclose.symm, if_pos rfl]
  rfl

theorem readMore_other (hclose : ∀ after, skipGap rest ≠ close :: after) (hcomma : ∀ after, skipGap rest ≠ ',' :: after) :
    readMore reader close fuel m rest = .error .expectingComma := by
  unfold readMore
  split
  · rfl
  · rename_i c after hskip
    rw [if_neg, if_neg]
    · rfl
    · rintro rfl
      exact hcomma after hskip
    · rintro rfl
      exact hclose after hskip

end ReadMore

theorem readItems_eq (fuel : Nat) (s : List Char) :
    readItems (fuel + 1) s = (readValue fuel s >>= fun found => readMore readItems ']' fuel found.1 found.2) := by
  rw [readItems]
  congr
  funext found
  obtain ⟨v, rest⟩ := found
  dsimp only
  split
  · rename_i hskip
    rw [readMore_close hskip]
    rfl
  · rename_i hskip
    rw [readMore_comma (by decide) hskip]
    rfl
  · rename_i hclose hcomma
    rw [readMore_other hclose hcomma]
    rfl

theorem readEntries_eq {fuel : Nat} {s afterKey afterColon : List Char} {key : String}
    (hkey : readText s = .ok (key, afterKey)) (hskip : skipGap afterKey = ':' :: afterColon) :
    readEntries (fuel + 1) ('"' :: s) = (readValue fuel (skipGap afterColon) >>= fun found =>
      readMore readEntries '\x7d' fuel (.text key, found.1) found.2) := by
  rw [readEntries, hkey, ok_bind]
  dsimp only
  rw [hskip]
  refine congrArg (readValue fuel (skipGap afterColon) >>= ·) (funext fun found => ?_)
  obtain ⟨v, rest⟩ := found
  dsimp only
  split
  · rename_i hskip
    rw [readMore_close hskip]
    rfl
  · rename_i hskip
    rw [readMore_comma (by decide) hskip]
    rfl
  · rename_i hclose hcomma
    rw [readMore_other hclose hcomma]
    rfl

/-- Entries start with a key and a colon. -/
theorem exists_key_of_readEntries {fuel : Nat} {s : List Char} {found : List (Scalar × Value) × List Char}
    (h : readEntries (fuel + 1) ('"' :: s) = .ok found) :
    ∃ key afterKey afterColon, readText s = .ok (key, afterKey) ∧ skipGap afterKey = ':' :: afterColon := by
  rw [readEntries] at h
  obtain ⟨⟨key, afterKey⟩, hkey, h⟩ := bind_eq_ok.1 h
  dsimp only at h
  split at h
  · rename_i afterColon hskip
    exact ⟨key, afterKey, afterColon, hkey, hskip⟩
  · cases h

/-- A member of a list or a mapping, read wherever it stands. -/
structure SpellsMember {α : Type} (reader : InsideReader α) (close : Char) (piece : List Char) (m : α) : Prop where
  head : ∃ c ∈ piece.head?, isBlank c = false ∧ c ≠ close
  written : IsWritten piece
  reads : ∀ fuel u, 2 * piece.length < fuel → MayFollow u → reader (fuel + 1) (piece ++ u) = readMore reader close fuel m u

namespace SpellsMember

variable {α : Type} {reader : InsideReader α} {close : Char} {piece gap : List Char} {m : α}
  (h : SpellsMember reader close piece m) (hclose : IsClosing close) (hgap : IsGapText gap)
include h

theorem head_append (u : List Char) : ∃ c ∈ (piece ++ u).head?, isBlank c = false ∧ c ≠ close := by
  obtain ⟨c, hc, hvisible⟩ := h.head
  obtain ⟨tail, rfl⟩ := List.head?_eq_some_iff.1 hc
  exact ⟨c, rfl, hvisible⟩

include hclose hgap

theorem spells_last : SpellsInside reader close (piece ++ (gap ++ [close])) [m] where
  head := h.head_append _
  last := by simp
  written := h.written.append (hgap.isWritten.append (by simp [IsWritten, hclose.visible.2.1]))
  reads fuel u hfuel := by
    obtain ⟨fuel, rfl⟩ : ∃ f, fuel = f + 1 := ⟨fuel - 1, by omega⟩
    simp only [List.append_assoc, List.singleton_append]
    rw [h.reads fuel _ (by simp at hfuel; omega) (hgap.mayFollow (hclose.mayFollow u))]
    exact readMore_close (skipGap_sign hgap hclose.visible.1 u)

theorem spells_cons {gap' more : List Char} {ms : List α} (hgap' : IsGapText gap') (hmore : SpellsInside reader close more ms) :
    SpellsInside reader close (piece ++ (gap ++ ',' :: (gap' ++ more))) (m :: ms) where
  head := h.head_append _
  last := by simp [List.getLast?_append, List.getLast?_cons, hmore.last]
  written := h.written.append (hgap.isWritten.append ((hgap'.isWritten.append hmore.written).cons (by decide)))
  reads fuel u hfuel := by
    obtain ⟨fuel, rfl⟩ : ∃ f, fuel = f + 1 := ⟨fuel - 1, by omega⟩
    simp only [List.append_assoc, List.cons_append]
    rw [h.reads fuel _ (by simp at hfuel; omega) (hgap.mayFollow (mayFollow_cons (by decide) _)),
      readMore_comma hclose.visible.2.2 (skipGap_sign hgap (by decide) _), (hmore.skipGap_eq hgap' u).1,
      hmore.reads fuel u (by simp at hfuel; omega)]
    rfl

omit hgap in
/-- What is read from a member on is spelt, if what the reader reads after it is. -/
theorem exists_spells {fuel : Nat} (hreads : ReadsInside reader close fuel) {left rest : List Char} {ms : List α}
    (hleft : readMore reader close fuel m left = .ok (ms, rest)) :
    ∃ whole, piece ++ left = whole ++ rest ∧ SpellsInside reader close whole ms := by
  obtain ⟨gap, hgap, hs⟩ := exists_gap left
  unfold readMore at hleft
  split at hleft
  · cases hleft
  · rename_i c after hskip
    split at hleft
    · rename_i heq
      cases hleft
      refine ⟨_, ?_, h.spells_last hclose hgap⟩
      rw [hs, hskip, heq]
      simp
    · split at hleft
      · rename_i heq
        obtain ⟨⟨more, last⟩, hmore, hleft⟩ := bind_eq_ok.1 hleft
        cases hleft
        obtain ⟨gap', hgap', hafter⟩ := exists_gap after
        obtain ⟨piece', hpiece', hspells'⟩ := hreads _ _ _ hmore
        refine ⟨_, ?_, h.spells_cons hclose hgap hgap' hspells'⟩
        rw [hs, hskip, heq, hafter, hpiece']
        simp
      · cases hleft

end SpellsMember

theorem Spells.member {piece : List Char} {v : Value} (h : Spells piece v) : SpellsMember readItems ']' piece v where
  head := by
    obtain ⟨c, hc, hvisible⟩ := h.edged.1
    exact ⟨c, hc, hvisible, (h.head_ne c hc).1⟩
  written := h.written
  reads fuel u hfuel hu := by
    rw [readItems_eq, h.reads fuel u hfuel hu]
    rfl

/-- An entry: a key, its colon and a value, with white space around the colon. -/
theorem Spells.entry {body gap gap' piece : List Char} {key : String} {v : Value} (h : Spells piece v)
    (hbody : ∀ c ∈ body, 32 ≤ c.toNat) (hread : ∀ u, readText (body ++ '"' :: u) = .ok (key, u)) (hgap : IsGapText gap)
    (hgap' : IsGapText gap') :
    SpellsMember readEntries '\x7d' ('"' :: (body ++ '"' :: (gap ++ ':' :: (gap' ++ piece)))) (.text key, v) where
  head := ⟨'"', rfl, by decide, by decide⟩
  written := by
    have hwritten : IsWritten body := fun c hc => .inl (hbody c hc)
    have hvalue : IsWritten (':' :: (gap' ++ piece)) := (hgap'.isWritten.append h.written).cons (by decide)
    exact (hwritten.append ((hgap.isWritten.append hvalue).cons (by decide))).cons (by decide)
  reads fuel u hfuel hu := by
    simp only [List.append_assoc, List.cons_append]
    rw [readEntries_eq (hread _) (skipGap_sign hgap (by decide) _), skipGap_append hgap' (h.head_append u),
      h.reads fuel u (by simp at hfuel; omega) hu]
    rfl

/-! ## What is read is spelt -/

section Steps

/-- With this fuel, values are read from pieces that spell them. -/
def ReadsValues (fuel : Nat) : Prop :=
  ∀ s v rest, readValue fuel s = .ok (v, rest) → ∃ piece, s = piece ++ rest ∧ Spells piece v

variable {fuel : Nat}

theorem readsValues_succ (hitems : ReadsInside readItems ']' fuel) (hentries : ReadsInside readEntries '\x7d' fuel) :
    ReadsValues (fuel + 1) := by
  intro s v rest h
  by_cases hlist : '[' ∈ s.head?
  · obtain ⟨tail, rfl⟩ := List.head?_eq_some_iff.1 hlist
    exact isBracket_list.exists_spells hitems h
  by_cases hdict : '\x7b' ∈ s.head?
  · obtain ⟨tail, rfl⟩ := List.head?_eq_some_iff.1 hdict
    exact isBracket_dict.exists_spells hentries h
  · have hhead : ∀ c ∈ s.head?, c ≠ '[' ∧ c ≠ '\x7b' := by
      rintro c hc
      exact ⟨fun heq => hlist (heq ▸ hc), fun heq => hdict (heq ▸ hc)⟩
    rw [readValue_of_head hhead] at h
    exact exists_spells_of_readScalar h hhead

theorem readsItems_succ (hvalues : ReadsValues fuel) (hitems : ReadsInside readItems ']' fuel) :
    ReadsInside readItems ']' (fuel + 1) := by
  intro s vs rest h
  rw [readItems_eq] at h
  obtain ⟨⟨v, left⟩, hvalue, hleft⟩ := bind_eq_ok.1 h
  obtain ⟨piece, rfl, hspells⟩ := hvalues _ _ _ hvalue
  exact hspells.member.exists_spells (.inl rfl) hitems hleft

theorem readsEntries_succ (hvalues : ReadsValues fuel) (hentries : ReadsInside readEntries '\x7d' fuel) :
    ReadsInside readEntries '\x7d' (fuel + 1) := by
  intro s writes rest h
  by_cases hquote : '"' ∈ s.head?
  · obtain ⟨tail, rfl⟩ := List.head?_eq_some_iff.1 hquote
    obtain ⟨key, afterKey, afterColon, hkey, hskip⟩ := exists_key_of_readEntries h
    rw [readEntries_eq hkey hskip] at h
    obtain ⟨body, rfl, hbody, hreadKey⟩ := readText_spells hkey
    obtain ⟨⟨v, left⟩, hvalue, hleft⟩ := bind_eq_ok.1 h
    obtain ⟨piece, hpiece, hspells⟩ := hvalues _ _ _ hvalue
    obtain ⟨gap, hgap, hafterKey⟩ := exists_gap afterKey
    obtain ⟨gap', hgap', hafterColon⟩ := exists_gap afterColon
    obtain ⟨whole, hwhole, hinside⟩ := (hspells.entry hbody hreadKey hgap hgap').exists_spells (.inr rfl) hentries hleft
    refine ⟨whole, ?_, hinside⟩
    rw [← hwhole, hafterKey, hskip, hafterColon, hpiece]
    simp
  · rw [readEntries] at h
    · cases h
    · rintro _ rfl
      exact hquote rfl

end Steps

theorem reads (fuel : Nat) :
    ReadsValues fuel ∧ ReadsInside readItems ']' fuel ∧ ReadsInside readEntries '\x7d' fuel := by
  -- The three readers call each other with less fuel, so one induction carries all of them.
  induction fuel with
  | zero => exact ⟨nofun, nofun, nofun⟩
  | succ fuel ih =>
    obtain ⟨hvalues, hitems, hentries⟩ := ih
    exact ⟨readsValues_succ hitems hentries, readsItems_succ hvalues hitems, readsEntries_succ hvalues hentries⟩

/-- What is read as a value is a piece of text that is read as this value wherever it stands. -/
theorem exists_spells {fuel : Nat} {s rest : List Char} {v : Value} (h : readValue fuel s = .ok (v, rest)) :
    ∃ piece, s = piece ++ rest ∧ Spells piece v :=
  (reads fuel).1 s v rest h

/-! ## Documents -/

theorem read_of_head {s : List Char} (h : '\ufeff' ∉ s.head?) :
    read s = (readValue (2 * s.length + 2) (skipGap s) >>= fun found =>
      if (skipGap found.2).isEmpty then pure found.1 else throw .extraData) := by
  unfold read
  split
  · exact absurd rfl h
  · rfl

/-- A value is read with white space around it, and with anything else after it, it is no document. -/
theorem read_of_spells {gap piece u : List Char} {v : Value} (hgap : IsGapText gap) (h : Spells piece v) (hu : MayFollow u) :
    read (gap ++ (piece ++ u)) = if (skipGap u).isEmpty then .ok v else .error .extraData := by
  have hhead : '\ufeff' ∉ (gap ++ (piece ++ u)).head? := by
    intro hc
    rw [Option.mem_def, List.head?_append, Option.or_eq_some_iff] at hc
    rcases hc with hc | ⟨-, hc⟩
    · exact absurd (hgap _ (List.mem_of_head? hc)) (by decide)
    · obtain ⟨c, hpiece, -⟩ := h.edged.1
      rw [List.head?_append, Option.mem_def.1 hpiece] at hc
      exact (h.head_ne c hpiece).2 (Option.some.inj hc)
  rw [read_of_head hhead, skipGap_append hgap (h.head_append u), h.reads _ u (by simp; omega) hu]
  rfl

theorem read_eq_ok_iff {s : List Char} {v : Value} :
    read s = .ok v ↔ ∃ gap piece gap', s = gap ++ (piece ++ gap') ∧ IsGapText gap ∧ IsGapText gap' ∧ Spells piece v := by
  constructor
  · intro h
    have hhead : '\ufeff' ∉ s.head? := by
      intro hc
      obtain ⟨tail, rfl⟩ := List.head?_eq_some_iff.1 hc
      cases h
    rw [read_of_head hhead] at h
    obtain ⟨⟨w, rest⟩, hvalue, h⟩ := bind_eq_ok.1 h
    obtain ⟨gap, hgap, hs⟩ := exists_gap s
    obtain ⟨piece, hpiece, hspells⟩ := exists_spells hvalue
    obtain ⟨gap', hgap', hrest⟩ := exists_gap rest
    dsimp only at h
    split at h
    · rename_i hempty
      cases h
      rw [List.isEmpty_iff.1 hempty, List.append_nil] at hrest
      exact ⟨gap, piece, rest, hpiece ▸ hs, hgap, hrest ▸ hgap', hspells⟩
    · cases h
  · rintro ⟨gap, piece, gap', rfl, hgap, hgap', hspells⟩
    have hskip : skipGap gap' = [] := by
      have := skipGap_append hgap' (u := []) nofun
      rwa [List.append_nil] at this
    have hfollow : MayFollow gap' := by
      have := hgap'.mayFollow (u := []) nofun
      rwa [List.append_nil] at this
    rw [read_of_spells hgap hspells hfollow, hskip]
    rfl

theorem read_of_spells_alone {piece : List Char} {v : Value} (h : Spells piece v) : read piece = .ok v :=
  read_eq_ok_iff.2 ⟨[], piece, [], by simp, isGapText_nil, isGapText_nil, h⟩

/-- Documents, one or more, with commas between them and a bracket behind them, are the items of a list. -/
theorem exists_spellsInside {texts : List (List Char)} {values : List Value}
    (h : List.Forall₂ (fun t v => read t = .ok v) texts values) (hne : texts ≠ []) :
    ∃ gap inside, joinWith [','] texts ++ [']'] = gap ++ inside ∧ IsGapText gap ∧
      SpellsInside readItems ']' inside values := by
  induction h with
  | nil => exact absurd rfl hne
  | @cons t v texts values hread hreads ih =>
    obtain ⟨gap, piece, gap', rfl, hgap, hgap', hspells⟩ := read_eq_ok_iff.1 hread
    by_cases hlast : texts = []
    · subst hlast
      cases hreads
      refine ⟨gap, _, ?_, hgap, hspells.member.spells_last (.inl rfl) hgap'⟩
      simp [joinWith]
    · obtain ⟨gap₂, inside, heq, hgap₂, hinside⟩ := ih hlast
      refine ⟨gap, _, ?_, hgap, hspells.member.spells_cons (.inl rfl) hgap' hgap₂ hinside⟩
      rw [joinWith_cons _ _ hlast, List.append_assoc, heq]
      simp

/-- Documents in brackets are read as the list of their values. -/
theorem spells_list {texts : List (List Char)} {values : List Value}
    (h : List.Forall₂ (fun t v => read t = .ok v) texts values) :
    Spells ('[' :: (joinWith [','] texts ++ [']'])) (.list values) := by
  by_cases hne : texts = []
  · subst hne
    cases h
    exact isBracket_list.spells_empty isGapText_nil
  · obtain ⟨gap, inside, heq, hgap, hinside⟩ := exists_spellsInside h hne
    rw [heq]
    exact isBracket_list.spells hgap hinside

end SearchBox.Json

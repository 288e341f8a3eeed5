import Mathlib.Data.List.TakeWhile
import SearchBox.Json.Read
import SearchBox.Proofs.Fallible
import SearchBox.Proofs.Number.Numeral
import SearchBox.Proofs.Text.Words

/-!
  SearchBox.Proofs.Json.Token — texts, numbers and words of JSON documents, each read from the
  characters it is made of and from no others. What is read is written in front of the rest,
  and it is read again wherever it stands in front of something that may follow a value
  (`readScalar_spells`).
-/

namespace SearchBox.Json

open SearchBox.Number SearchBox.Text

/-! ## What may follow -/

/-- What may follow a value: nothing, white space of any kind, a comma or a closing bracket. -/
def MayFollow (u : List Char) : Prop :=
  ∀ c ∈ u.head?, (isBlank c || c = ',' || c = ']' || c = '\x7d') = true

/-- Digits end in front of this text. -/
def EndsDigits (u : List Char) : Prop :=
  ∀ c ∈ u.head?, c.isDigit = false

theorem MayFollow.head_ne {u : List Char} (h : MayFollow u) {c : Char} (hc : c ∈ u.head?) :
    c.isDigit = false ∧ c ≠ '.' ∧ c ≠ 'e' ∧ c ≠ 'E' := by
  have hfollow := h c hc
  simp only [Bool.or_eq_true, decide_eq_true_eq] at hfollow
  rcases hfollow with ((hblank | rfl) | rfl) | rfl
  · refine ⟨?_, ?_, ?_, ?_⟩
    · cases hdigit : c.isDigit with
      | false => rfl
      | true =>
        rw [isBlank_of_isDigit hdigit] at hblank
        cases hblank
    · rintro rfl
      cases hblank
    · rintro rfl
      cases hblank
    · rintro rfl
      cases hblank
  · decide
  · decide
  · decide

theorem MayFollow.endsDigits {u : List Char} (h : MayFollow u) : EndsDigits u :=
  fun _ hc => (h.head_ne hc).1

/-! ## Texts -/

theorem le_toNat_of_hexValue? {c : Char} (h : (hexValue? c).isSome) : 48 ≤ c.toNat := by
  unfold hexValue? at h
  simp only [Char.le_def, UInt32.le_iff_toNat_le] at h
  show 48 ≤ c.val.toNat
  split at h
  · exact ‹_ ∧ _›.1
  split at h
  · exact Nat.le_trans (show 48 ≤ 97 by decide) ‹_ ∧ _›.1
  split at h
  · exact Nat.le_trans (show 48 ≤ 65 by decide) ‹_ ∧ _›.1
  · cases h

theorem le_toNat_of_shortEscape? {c e : Char} (h : shortEscape? c = some e) : 32 ≤ c.toNat := by
  unfold shortEscape? at h
  split at h
  case h_9 => cases h
  all_goals decide

/-- Four digits are read from any text that they start and that goes on. -/
theorem readCode?_spells {s rest : List Char} {n : Nat} (h : readCode? s = some (n, rest)) :
    ∃ code, s = code ++ rest ∧ (∀ c ∈ code, 48 ≤ c.toNat) ∧ ∀ u, u ≠ [] → readCode? (code ++ u) = some (n, u) := by
  unfold readCode? at h
  split at h
  · rename_i a b c d e rest
    obtain ⟨digits, hdigits, h⟩ := Option.bind_eq_some_iff.1 h
    cases h
    refine ⟨[a, b, c, d], rfl, fun x hx => ?_, fun u hu => ?_⟩
    · simp only [List.mapM_cons, Option.bind_eq_bind, Option.bind_eq_some_iff] at hdigits
      obtain ⟨va, ha, _, ⟨vb, hb, _, ⟨vc, hc, _, ⟨vd, hd, -⟩, -⟩, -⟩, -⟩ := hdigits
      simp only [List.mem_cons, List.not_mem_nil, or_false] at hx
      rcases hx with rfl | rfl | rfl | rfl <;> exact le_toNat_of_hexValue? (Option.isSome_iff_exists.2 ⟨_, ‹_›⟩)
    · obtain ⟨e', u', rfl⟩ := List.exists_cons_of_ne_nil hu
      show ([a, b, c, d].mapM hexValue? >>= _) = _
      rw [hdigits]
      rfl
  · cases h

theorem readLowHalf?_spells {s rest : List Char} {n : Nat} (h : readLowHalf? s = some (n, rest)) :
    ∃ code, s = code ++ rest ∧ (∀ c ∈ code, 48 ≤ c.toNat) ∧ ∀ u, u ≠ [] → readLowHalf? (code ++ u) = some (n, u) := by
  unfold readLowHalf? at h
  split at h
  · split at h
    · rename_i m after hcode
      split at h
      · rename_i hrange
        cases h
        obtain ⟨code, rfl, hwritten, hread⟩ := readCode?_spells hcode
        refine ⟨'\\' :: 'u' :: code, rfl, by simpa using hwritten, fun u hu => ?_⟩
        rw [List.cons_append, List.cons_append, readLowHalf?, hread u hu]
        exact if_pos hrange
      · cases h
    · cases h
  · cases h

/-- What stands in front of a quote is there whatever follows the quote. -/
theorem exists_append_of_quote {p u w x : List Char} (h : p ++ '"' :: u = w ++ x) (hw : ∀ c ∈ w, 48 ≤ c.toNat) :
    ∃ p', p = w ++ p' ∧ x = p' ++ '"' :: u := by
  rcases List.append_eq_append_iff.1 h with ⟨a, rfl, ha⟩ | ⟨p', hp, hx⟩
  · cases a with
    | nil => exact ⟨[], by simp, ha.symm⟩
    | cons c a =>
      cases (List.cons.inj ha).1
      exact absurd (hw '"' (by simp)) (by decide)
  · exact ⟨p', hp, hx⟩

theorem readLowHalf?_quote {p rest : List Char} (h : readLowHalf? (p ++ '"' :: rest) = none) (u : List Char) :
    readLowHalf? (p ++ '"' :: u) = none := by
  cases hread : readLowHalf? (p ++ '"' :: u) with
  | none => rfl
  | some found =>
    obtain ⟨n, after⟩ := found
    obtain ⟨code, hcode, hwritten, hagain⟩ := readLowHalf?_spells hread
    obtain ⟨p', rfl, -⟩ := exists_append_of_quote hcode hwritten
    rw [List.append_assoc, hagain _ (by simp)] at h
    cases h

theorem readEscapedCode?_spells {s p rest : List Char} {c : Char}
    (h : readEscapedCode? s = some (c, p ++ '"' :: rest)) :
    ∃ code, s = code ++ (p ++ '"' :: rest) ∧ (∀ x ∈ code, 48 ≤ x.toNat) ∧
      ∀ u, readEscapedCode? (code ++ (p ++ '"' :: u)) = some (c, p ++ '"' :: u) := by
  unfold readEscapedCode? at h
  obtain ⟨⟨n, after⟩, hcode, hbody⟩ := Option.bind_eq_some_iff.1 h
  obtain ⟨code, rfl, hwritten, hread⟩ := readCode?_spells hcode
  have hquote : ∀ u : List Char, p ++ '"' :: u ≠ [] := by simp
  dsimp only at hbody
  split at hbody
  · rename_i hhigh
    split at hbody
    · rename_i low after hlow
      obtain ⟨rfl, rfl⟩ := Prod.mk.inj (Option.some.inj hbody)
      obtain ⟨code', rfl, hwritten', hread'⟩ := readLowHalf?_spells hlow
      refine ⟨code ++ code', by simp, fun x hx => ?_, fun u => ?_⟩
      · exact (List.mem_append.1 hx).elim (hwritten x) (hwritten' x)
      · rw [readEscapedCode?, List.append_assoc, hread _ (by simp)]
        simp only [Option.bind_eq_bind, Option.bind_some, if_pos hhigh, hread' _ (hquote u)]
        rfl
    · rename_i hlow
      obtain ⟨rfl, rfl⟩ := Prod.mk.inj (Option.some.inj hbody)
      refine ⟨code, rfl, hwritten, fun u => ?_⟩
      rw [readEscapedCode?, hread _ (hquote u)]
      simp only [Option.bind_eq_bind, Option.bind_some, if_pos hhigh, readLowHalf?_quote hlow u]
      rfl
  · -- No pair starts here, so what follows is not looked at.
    rename_i hhigh
    have hafter : after = p ++ '"' :: rest := by
      split at hbody <;> exact (Prod.mk.inj (Option.some.inj hbody)).2
    subst hafter
    refine ⟨code, rfl, hwritten, fun u => ?_⟩
    rw [readEscapedCode?, hread _ (hquote u)]
    simp only [Option.bind_eq_bind, Option.bind_some, if_neg hhigh]
    split at hbody
    · rename_i hlow
      cases hbody
      rw [if_pos hlow]
      rfl
    · rename_i hlow
      cases hbody
      rw [if_neg hlow]
      rfl

/-- The characters of a text up to its closing quote. -/
theorem readTextFrom_spells {fuel : Nat} {done s rest : List Char} {t : String}
    (h : readTextFrom fuel done s = .ok (t, rest)) :
    ∃ body, s = body ++ '"' :: rest ∧ (∀ c ∈ body, 32 ≤ c.toNat) ∧
      ∀ fuel' u, body.length < fuel' → readTextFrom fuel' done (body ++ '"' :: u) = .ok (t, u) := by
  -- Each case puts the characters it reads in front of those that the rest is read from. The fuel
  -- may change with what follows the text, so it stays arbitrary.
  fun_induction readTextFrom fuel done s with
  | case1 => cases h
  | case2 => cases h
  | case3 fuel done after =>
    cases h
    refine ⟨[], rfl, by simp, fun fuel' u hfuel => ?_⟩
    obtain ⟨fuel', rfl⟩ := Nat.exists_eq_add_of_lt hfuel
    rfl
  | case4 => cases h
  | case5 fuel done s c after hcode ih =>
    obtain ⟨body, rfl, hwritten, hread⟩ := ih h
    obtain ⟨code, rfl, hwrittenCode, hreadCode⟩ := readEscapedCode?_spells hcode
    refine ⟨'\\' :: 'u' :: (code ++ body), by simp, ?_, fun fuel' u hfuel => ?_⟩
    · simp only [List.forall_mem_cons, List.forall_mem_append]
      exact ⟨by decide, by decide, fun x hx => Nat.le_trans (by decide) (hwrittenCode x hx), hwritten⟩
    · obtain ⟨fuel', rfl⟩ : ∃ f, fuel' = f + 1 := ⟨fuel' - 1, by omega⟩
      simp only [List.cons_append, List.append_assoc]
      rw [readTextFrom, hreadCode u]
      exact hread fuel' u (by simp at hfuel; omega)
  | case6 => cases h
  | case7 fuel done e s hu c hc ih =>
    obtain ⟨body, rfl, hwritten, hread⟩ := ih h
    refine ⟨'\\' :: e :: body, rfl, ?_, fun fuel' u hfuel => ?_⟩
    · simp only [List.forall_mem_cons]
      exact ⟨by decide, le_toNat_of_shortEscape? hc, hwritten⟩
    · obtain ⟨fuel', rfl⟩ : ∃ f, fuel' = f + 1 := ⟨fuel' - 1, by omega⟩
      simp only [List.cons_append]
      rw [readTextFrom, hc]
      · exact hread fuel' u (by simp at hfuel; omega)
      · exact hu
  | case8 => cases h
  | case9 => cases h
  | case10 fuel done c s hquote hend hcode hescape hwrittenHead ih =>
    have hplain : c ≠ '\\' := by
      intro hc
      cases s with
      | nil => exact hend hc rfl
      | cons e s => exact hescape e s hc rfl
    obtain ⟨body, rfl, hwritten, hread⟩ := ih h
    refine ⟨c :: body, rfl, List.forall_mem_cons.2 ⟨by omega, hwritten⟩, fun fuel' u hfuel => ?_⟩
    obtain ⟨fuel', rfl⟩ : ∃ f, fuel' = f + 1 := ⟨fuel' - 1, by omega⟩
    rw [List.cons_append, readTextFrom, if_neg hwrittenHead]
    · exact hread fuel' u (by simp at hfuel; omega)
    · exact hquote
    · exact fun hc => absurd hc hplain
    · exact fun _ hc => absurd hc hplain
    · exact fun _ _ hc => absurd hc hplain

theorem readText_spells {s rest : List Char} {t : String} (h : readText s = .ok (t, rest)) :
    ∃ body, s = body ++ '"' :: rest ∧ (∀ c ∈ body, 32 ≤ c.toNat) ∧
      ∀ u, readText (body ++ '"' :: u) = .ok (t, u) := by
  obtain ⟨body, rfl, hwritten, hread⟩ := readTextFrom_spells h
  exact ⟨body, rfl, hwritten, fun u => hread _ u (by rw [List.length_append, List.length_cons]; omega)⟩

/-! ## Numbers -/

theorem spanDigits_append {digits u : List Char} (h : ∀ c ∈ digits, c.isDigit = true) (hu : EndsDigits u) :
    spanDigits (digits ++ u) = (digits, u) := by
  rw [spanDigits, takeWhile_run h hu, dropWhile_run h hu]

theorem spanDigits_spells {s digits rest : List Char} (h : spanDigits s = (digits, rest)) :
    s = digits ++ rest ∧ ∀ c ∈ digits, c.isDigit = true := by
  cases h
  exact ⟨List.takeWhile_append_dropWhile.symm, fun _ => List.mem_takeWhile_imp⟩

/-- What is written of a number ends in a digit. -/
structure IsNumberPart (part : List Char) : Prop where
  written : ∀ c ∈ part, 32 ≤ c.toNat
  last : ∀ c ∈ part.getLast?, c.isDigit = true

theorem isNumberPart_nil : IsNumberPart [] :=
  ⟨nofun, nofun⟩

theorem isNumberPart_of_isDigit {digits : List Char} (h : ∀ c ∈ digits, c.isDigit = true) : IsNumberPart digits :=
  ⟨fun c hc => Nat.le_trans (by decide) (digit_bounds (h c hc)).1, fun c hc => h c (List.mem_of_getLast? hc)⟩

theorem IsNumberPart.append {a b : List Char} (ha : IsNumberPart a) (hb : IsNumberPart b) : IsNumberPart (a ++ b) := by
  refine ⟨fun c hc => (List.mem_append.1 hc).elim (ha.written c) (hb.written c), fun c hc => ?_⟩
  rw [List.getLast?_append, Option.mem_def, Option.or_eq_some_iff] at hc
  exact hc.elim (hb.last c) fun h => ha.last c h.2

theorem IsNumberPart.isEdged {part : List Char} (h : IsNumberPart part) (hhead : ∃ c ∈ part.head?, isBlank c = false) :
    IsEdged part := by
  refine ⟨hhead, ?_⟩
  obtain ⟨c, hc, -⟩ := hhead
  have hne : part ≠ [] := by
    rintro rfl
    cases hc
  have hlast := List.getLast?_eq_some_getLast hne
  exact ⟨_, hlast, isBlank_of_isDigit (h.last _ hlast)⟩

theorem isNumberPart_append_digits {front digits : List Char} (hfront : ∀ c ∈ front, 32 ≤ c.toNat) (hne : digits ≠ [])
    (h : ∀ c ∈ digits, c.isDigit = true) : IsNumberPart (front ++ digits) := by
  have hdigits := isNumberPart_of_isDigit h
  refine ⟨fun c hc => (List.mem_append.1 hc).elim (hfront c) (hdigits.written c), fun c hc => hdigits.last c ?_⟩
  rwa [List.getLast?_append, List.getLast?_eq_some_getLast hne, Option.some_or, ← List.getLast?_eq_some_getLast hne] at hc

theorem readWhole?_spells {s whole rest : List Char} (h : readWhole? s = some (whole, rest)) :
    s = whole ++ rest ∧ whole ≠ [] ∧ (∀ c ∈ whole, c.isDigit = true) ∧
      ∀ u, EndsDigits u → readWhole? (whole ++ u) = some (whole, u) := by
  unfold readWhole? at h
  split at h
  · cases h
    exact ⟨rfl, by simp, by simp, fun u _ => rfl⟩
  · rename_i hzero
    split at h
    · cases h
    · rename_i hne
      have hspan := Option.some.inj h
      obtain ⟨rfl, hdigits⟩ := spanDigits_spells hspan
      rw [hspan] at hne
      cases whole with
      | nil => exact absurd rfl hne
      | cons c whole =>
        refine ⟨rfl, List.cons_ne_nil _ _, hdigits, fun u hu => ?_⟩
        unfold readWhole?
        split
        · rename_i heq
          rw [(List.cons.inj heq).1] at hzero
          exact (hzero (whole ++ rest) rfl).elim
        · rw [spanDigits_append hdigits hu]
          rfl

def afterPart {α : Type} (found : Option (α × List Char)) (s : List Char) : List Char :=
  (found.map (·.2)).getD s

theorem readFraction?_spells (s : List Char) :
    ∃ part, s = part ++ afterPart (readFraction? s) s ∧ IsNumberPart part ∧ (∀ c ∈ part.head?, c = '.') ∧
      ∀ u, (∀ c ∈ u.head?, c.isDigit = false ∧ c ≠ '.') →
        (readFraction? (part ++ u)).map (·.1) = (readFraction? s).map (·.1) ∧
          afterPart (readFraction? (part ++ u)) (part ++ u) = u := by
  cases h : readFraction? s with
  | none =>
    refine ⟨[], rfl, isNumberPart_nil, nofun, fun u hu => ?_⟩
    rw [List.nil_append]
    unfold readFraction?
    split
    · exact absurd rfl (hu '.' rfl).2
    · exact ⟨rfl, rfl⟩
  | some found =>
    obtain ⟨digits, rest⟩ := found
    unfold readFraction? at h
    split at h
    · rename_i after
      split at h
      · cases h
      · rename_i hne
        have hspan := Option.some.inj h
        obtain ⟨rfl, hdigits⟩ := spanDigits_spells hspan
        rw [hspan, List.isEmpty_iff] at hne
        refine ⟨'.' :: digits, rfl, @isNumberPart_append_digits ['.'] digits (by simp) hne hdigits, by simp,
          fun u hu => ?_⟩
        have hread : readFraction? ('.' :: digits ++ u) = some (digits, u) := by
          show (if (spanDigits (digits ++ u)).1.isEmpty then none else some (spanDigits (digits ++ u))) = _
          rw [spanDigits_append hdigits fun c hc => (hu c hc).1, if_neg (by simpa using hne)]
        rw [hread]
        exact ⟨rfl, rfl⟩
    · cases h

theorem signOf_spells (s : List Char) :
    ∃ sign, s = sign ++ (signOf s).2 ∧ (∀ c ∈ sign, 32 ≤ c.toNat) ∧
      ∀ u, (∃ c ∈ u.head?, c.isDigit = true) → signOf (sign ++ u) = ((signOf s).1, u) := by
  unfold signOf
  split
  · exact ⟨['-'], rfl, by simp, fun u _ => rfl⟩
  · exact ⟨['+'], rfl, by simp, fun u _ => rfl⟩
  · refine ⟨[], rfl, nofun, fun u hu => ?_⟩
    obtain ⟨c, hc, hdigit⟩ := hu
    rw [List.nil_append]
    split
    · cases Option.some.inj hc
      cases hdigit
    · cases Option.some.inj hc
      cases hdigit
    · rfl

theorem readExponentPart?_spells (s : List Char) :
    ∃ part, s = part ++ afterPart (readExponentPart? s) s ∧ IsNumberPart part ∧ (∀ c ∈ part.head?, c = 'e' ∨ c = 'E') ∧
      ∀ u, MayFollow u →
        (readExponentPart? (part ++ u)).map (·.1) = (readExponentPart? s).map (·.1) ∧
          afterPart (readExponentPart? (part ++ u)) (part ++ u) = u := by
  cases h : readExponentPart? s with
  | none =>
    refine ⟨[], rfl, isNumberPart_nil, nofun, fun u hu => ?_⟩
    rw [List.nil_append]
    unfold readExponentPart?
    split
    · obtain ⟨-, -, he, hE⟩ := hu.head_ne rfl
      rw [if_neg (not_or.2 ⟨he, hE⟩)]
      exact ⟨rfl, rfl⟩
    · exact ⟨rfl, rfl⟩
  | some found =>
    obtain ⟨n, rest⟩ := found
    unfold readExponentPart? at h
    split at h
    · rename_i c after
      split at h
      · rename_i he
        dsimp only at h
        split at h
        · cases h
        · rename_i hne
          obtain ⟨sign, hafter, hsign, hreadSign⟩ := signOf_spells after
          generalize hspan : spanDigits (signOf after).2 = span at h hne
          obtain ⟨digits, left⟩ := span
          obtain ⟨hdigitsRest, hdigits⟩ := spanDigits_spells hspan
          cases h
          rw [List.isEmpty_iff] at hne
          have hwritten : ∀ x ∈ c :: sign, 32 ≤ x.toNat :=
            List.forall_mem_cons.2 ⟨by rcases he with rfl | rfl <;> decide, hsign⟩
          refine ⟨c :: (sign ++ digits), ?_, isNumberPart_append_digits hwritten hne hdigits, by simpa using he,
            fun u hu => ?_⟩
          · rw [hafter, hdigitsRest]
            simp [afterPart]
          · have hhead : ∃ x ∈ (digits ++ u).head?, x.isDigit = true := by
              obtain ⟨d, ds, rfl⟩ := List.exists_cons_of_ne_nil hne
              exact ⟨d, rfl, hdigits d List.mem_cons_self⟩
            rw [List.cons_append, List.append_assoc]
            unfold readExponentPart?
            simp only [if_pos he, hreadSign _ hhead, spanDigits_append hdigits hu.endsDigits]
            rw [if_neg (by simpa using hne)]
            exact ⟨rfl, rfl⟩
      · cases h
    · cases h

def numberOf (negative : Bool) (whole : List Char) (decimals : Option (List Char)) (power : Option Int) :
    Except ReadError Value :=
  if decimals.isNone && power.isNone then
    if whole.length ≤ digitLimit then .ok (.int (signed negative (ofDigits 10 (digitValues whole))))
    else .error (.integerTooLong whole.length)
  else
    .ok (.float (Binary64.ofDecimal negative (ofDigits 10 (digitValues (whole ++ decimals.getD [])))
      (power.getD 0 - (decimals.getD []).length)))

theorem readNumber_eq {negative : Bool} {s whole rest : List Char} (h : readWhole? s = some (whole, rest)) :
    readNumber negative s =
      (numberOf negative whole ((readFraction? rest).map (·.1))
        ((readExponentPart? (afterPart (readFraction? rest) rest)).map (·.1))).map fun v =>
          (v, afterPart (readExponentPart? (afterPart (readFraction? rest) rest)) (afterPart (readFraction? rest) rest)) := by
  unfold readNumber numberOf afterPart
  simp only [h]
  cases readFraction? rest with
  | none =>
    simp only [Option.map_none, Option.getD_none]
    cases readExponentPart? rest with
    | none =>
      simp only [Option.isNone_none, Option.map_none, Bool.and_self, if_true]
      split <;> rfl
    | some found => rfl
  | some found =>
    simp only [Option.map_some, Option.getD_some]
    cases readExponentPart? found.2 <;> rfl

/-- What a number is made of after its sign. -/
theorem readNumber_spells {negative : Bool} {s rest : List Char} {v : Value} (h : readNumber negative s = .ok (v, rest)) :
    ∃ number, s = number ++ rest ∧ IsNumberPart number ∧ (∃ c ∈ number.head?, c.isDigit = true) ∧
      ∀ u, MayFollow u → readNumber negative (number ++ u) = .ok (v, u) := by
  cases hread : readWhole? s with
  | none =>
    rw [readNumber, hread] at h
    cases h
  | some found =>
    obtain ⟨whole, afterWhole⟩ := found
    rw [readNumber_eq hread] at h
    obtain ⟨w, hnumber, hw⟩ := exists_of_map_eq_ok h
    obtain ⟨rfl, hne, hdigits, hreadWhole⟩ := readWhole?_spells hread
    obtain ⟨fraction, hfraction, hfractionPart, hpoint, hreadFraction⟩ := readFraction?_spells afterWhole
    obtain ⟨exponent, hexponent, hexponentPart, hletter, hreadExponent⟩ :=
      readExponentPart?_spells (afterPart (readFraction? afterWhole) afterWhole)
    refine ⟨whole ++ (fraction ++ exponent), ?_, ?_, ?_, fun u hu => ?_⟩
    · cases hw
      rw [List.append_assoc, List.append_assoc, ← hexponent, ← hfraction]
    · exact (isNumberPart_of_isDigit hdigits).append (hfractionPart.append hexponentPart)
    · obtain ⟨d, ds, rfl⟩ := List.exists_cons_of_ne_nil hne
      exact ⟨d, rfl, hdigits d List.mem_cons_self⟩
    · have hexponentHead : ∀ c ∈ (exponent ++ u).head?, c.isDigit = false ∧ c ≠ '.' := by
        intro c hc
        rw [Option.mem_def, List.head?_append, Option.or_eq_some_iff] at hc
        rcases hc with hc | ⟨-, hc⟩
        · rcases hletter c hc with rfl | rfl <;> decide
        · exact ⟨(hu.head_ne hc).1, (hu.head_ne hc).2.1⟩
      have hfractionHead : EndsDigits (fraction ++ (exponent ++ u)) := by
        intro c hc
        rw [Option.mem_def, List.head?_append, Option.or_eq_some_iff] at hc
        rcases hc with hc | ⟨-, hc⟩
        · rw [hpoint c hc]
          decide
        · exact (hexponentHead c hc).1
      obtain ⟨hdecimals, hafterFraction⟩ := hreadFraction _ hexponentHead
      obtain ⟨hpower, hafterExponent⟩ := hreadExponent u hu
      rw [List.append_assoc, List.append_assoc, readNumber_eq (hreadWhole _ hfractionHead), hafterFraction, hdecimals,
        hpower, hafterExponent, hnumber]
      cases hw
      rfl

/-! ## Words -/

theorem dropLiteral?_eq_some {word : String} {s rest : List Char} (h : dropLiteral? word s = some rest) :
    s = word.toList ++ rest := by
  unfold dropLiteral? at h
  split at h
  · rename_i hprefix
    obtain ⟨u, rfl⟩ := List.isPrefixOf_iff_prefix.1 hprefix
    cases h
    rw [List.drop_left]
  · cases h

theorem readLiteral?_append : ∀ e ∈ literals, IsSolid e.1.toList ∧ (∀ c ∈ e.1.toList, 32 ≤ c.toNat ∧ c ≠ '"') ∧
    ∀ u, readLiteral? (e.1.toList ++ u) = some (e.2, u) := by
  intro e he
  simp only [literals, List.mem_cons, List.not_mem_nil, or_false] at he
  rcases he with rfl | rfl | rfl | rfl | rfl | rfl <;> exact ⟨by decide, by simp, fun u => rfl⟩

theorem readLiteral?_spells {s rest : List Char} {v : Value} (h : readLiteral? s = some (v, rest)) :
    ∃ word, s = word ++ rest ∧ IsSolid word ∧ (∀ c ∈ word, 32 ≤ c.toNat ∧ c ≠ '"') ∧
      ∀ u, readLiteral? (word ++ u) = some (v, u) := by
  obtain ⟨e, he, hfound⟩ := List.exists_of_findSome?_eq_some h
  obtain ⟨after, hafter, heq⟩ := Option.map_eq_some_iff.1 hfound
  cases heq
  exact ⟨_, dropLiteral?_eq_some hafter, readLiteral?_append e he⟩

theorem readLiteral?_eq_none {s : List Char} (h : ∀ e ∈ literals, ¬ e.1.toList <+: s) : readLiteral? s = none := by
  refine List.findSome?_eq_none_iff.2 fun e he => ?_
  show (dropLiteral? e.1 s).map _ = none
  rw [dropLiteral?, if_neg (mt List.isPrefixOf_iff_prefix.1 (h e he))]
  rfl

/-- No word starts with a digit, also not after a sign. -/
theorem readLiteral?_of_isDigit {c : Char} (hc : c.isDigit = true) (s : List Char) :
    readLiteral? (c :: s) = none ∧ readLiteral? ('-' :: c :: s) = none := by
  refine ⟨readLiteral?_eq_none fun e he hprefix => ?_, readLiteral?_eq_none fun e he hprefix => ?_⟩ <;>
  · simp only [literals, List.mem_cons, List.not_mem_nil, or_false] at he
    rcases he with rfl | rfl | rfl | rfl | rfl | rfl <;> simp at hprefix <;> rw [← hprefix.1] at hc <;> cases hc

/-! ## Scalars -/

theorem readScalar_eq_ok_of_literal {s rest : List Char} {v : Value} (h : readLiteral? s = some (v, rest))
    (hquote : '"' ∉ s.head?) : readScalar s = .ok (v, rest) := by
  unfold readScalar
  split
  · exact absurd rfl hquote
  · rw [h]

theorem readScalar_of_isDigit {c : Char} (hc : c.isDigit = true) (s : List Char) :
    readScalar (c :: s) = readNumber false (c :: s) ∧ readScalar ('-' :: c :: s) = readNumber true (c :: s) := by
  obtain ⟨hplain, hminus⟩ := readLiteral?_of_isDigit hc s
  constructor
  · unfold readScalar
    split
    · rename_i heq
      cases (List.cons.inj heq).1
      cases hc
    · rw [hplain]
      dsimp only
      split
      · rename_i heq
        cases (List.cons.inj heq).1
        cases hc
      · rfl
  · unfold readScalar
    split
    · rename_i heq
      exact absurd (List.cons.inj heq).1 (by decide)
    · rw [hminus]
      rfl

/-- A scalar is read from the text it is written in, and from this text wherever it stands. -/
theorem readScalar_spells {s rest : List Char} {v : Value} (h : readScalar s = .ok (v, rest)) :
    ∃ pre, s = pre ++ rest ∧ IsEdged pre ∧ (∀ c ∈ pre, 32 ≤ c.toNat) ∧
      ∀ u, MayFollow u → readScalar (pre ++ u) = .ok (v, u) := by
  unfold readScalar at h
  split at h
  · rename_i after
    cases htext : readText after with
    | error e =>
      rw [htext] at h
      cases h
    | ok found =>
      obtain ⟨t, left⟩ := found
      rw [htext] at h
      cases h
      obtain ⟨body, rfl, hwritten, hread⟩ := readText_spells htext
      refine ⟨'"' :: (body ++ ['"']), by simp, ?_, ?_, fun u _ => ?_⟩
      · exact ⟨⟨'"', rfl, by decide⟩, '"', List.getLast?_concat (l := '"' :: body), by decide⟩
      · simp only [List.forall_mem_cons, List.forall_mem_append]
        exact ⟨by decide, hwritten, by decide, nofun⟩
      · rw [List.cons_append, List.append_assoc]
        show (readText (body ++ '"' :: u) >>= _) = _
        rw [hread]
        rfl
  · rename_i hquote
    split at h
    · rename_i found hliteral
      cases h
      obtain ⟨word, rfl, hsolid, hwritten, hread⟩ := readLiteral?_spells hliteral
      refine ⟨word, rfl, hsolid.isEdged, fun c hc => (hwritten c hc).1, fun u _ => ?_⟩
      refine readScalar_eq_ok_of_literal (hread u) fun hhead => ?_
      obtain ⟨c, word, rfl⟩ := List.exists_cons_of_ne_nil hsolid.1
      exact (hwritten c List.mem_cons_self).2 (Option.some.inj hhead)
    · rename_i hliteral
      split at h
      · rename_i after
        obtain ⟨number, rfl, hpart, ⟨d, hd, hdigit⟩, hread⟩ := readNumber_spells h
        obtain ⟨number, rfl⟩ := List.head?_eq_some_iff.1 hd
        have hminus : IsNumberPart ('-' :: d :: number) :=
          ⟨List.forall_mem_cons.2 ⟨by decide, hpart.written⟩, by rw [List.getLast?_cons_cons]; exact hpart.last⟩
        refine ⟨'-' :: d :: number, rfl, hminus.isEdged ⟨'-', rfl, by decide⟩, hminus.written, fun u hu => ?_⟩
        rw [← hread u hu]
        exact (readScalar_of_isDigit hdigit _).2
      · obtain ⟨number, rfl, hpart, ⟨d, hd, hdigit⟩, hread⟩ := readNumber_spells h
        obtain ⟨number, rfl⟩ := List.head?_eq_some_iff.1 hd
        refine ⟨d :: number, rfl, hpart.isEdged ⟨d, rfl, isBlank_of_isDigit hdigit⟩, hpart.written, fun u hu => ?_⟩
        rw [← hread u hu]
        exact (readScalar_of_isDigit hdigit _).1

end SearchBox.Json

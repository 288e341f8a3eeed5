import SearchBox.Proofs.Json.Read

/-!
  SearchBox.Proofs.Json.LongNumbers — which texts have a number that is too long to be read. There
  is only one error that is no fault of the text, and a text that it is raised for holds more digits
  in a row than an integer may have (`hasLongNumber_of_read`): the reader of numbers counts digits
  that stand in a row, and all the other readers raise the errors of what they read.
-/

namespace SearchBox.Json

open SearchBox.Number

/-- More digits stand in a row than an integer may have. -/
def HasLongNumber (s : List Char) : Prop :=
  ∃ run, run <:+: s ∧ (∀ c ∈ run, c.isDigit = true) ∧ digitLimit < run.length

theorem HasLongNumber.mono {s t : List Char} (h : HasLongNumber s) (hst : s <:+: t) : HasLongNumber t := by
  obtain ⟨run, hrun, hdigits, hlong⟩ := h
  exact ⟨run, hrun.trans hst, hdigits, hlong⟩

/-- Only a text with a long number is blamed for one. -/
def Blames (s : List Char) (e : ReadError) : Prop :=
  ∀ digits, e = .integerTooLong digits → HasLongNumber s

theorem Blames.mono {s t : List Char} (hst : s <:+: t) (e : ReadError) (h : Blames s e) : Blames t e :=
  fun digits he => (h digits he).mono hst

theorem skipGap_isInfix (s : List Char) : skipGap s <:+: s :=
  (List.dropWhile_suffix isGap).isInfix

theorem isInfix_of_append {s piece rest : List Char} (h : s = piece ++ rest) : rest <:+: s :=
  h ▸ (List.suffix_append piece rest).isInfix

/-! ## Scalars -/

theorem readTextFrom_blames (fuel : Nat) (done s t : List Char) : FailsWith (Blames t) (readTextFrom fuel done s) := by
  fun_induction readTextFrom fuel done s
  case case3 => exact failsWith_ok _
  case case5 ih => exact ih
  case case7 ih => exact ih
  case case10 ih => exact ih
  all_goals exact failsWith_error (by rintro _ ⟨⟩)

theorem readNumber_blames (negative : Bool) (s : List Char) : FailsWith (Blames s) (readNumber negative s) := by
  cases hwhole : readWhole? s with
  | none =>
    rw [readNumber, hwhole]
    exact failsWith_error (by rintro _ ⟨⟩)
  | some found =>
    obtain ⟨whole, rest⟩ := found
    obtain ⟨rfl, -, hdigits, -⟩ := readWhole?_spells hwhole
    have hnumber : ∀ decimals power, FailsWith (Blames (whole ++ rest)) (numberOf negative whole decimals power) := by
      intro decimals power
      unfold numberOf
      split
      · split
        · exact failsWith_ok _
        · rename_i hlong
          exact failsWith_error fun _ _ =>
            ⟨whole, (List.prefix_append whole rest).isInfix, hdigits, Nat.lt_of_not_le hlong⟩
      · exact failsWith_ok _
    rw [readNumber_eq hwhole]
    exact FailsWith.map (hnumber _ _) _

theorem readScalar_blames (s : List Char) : FailsWith (Blames s) (readScalar s) := by
  unfold readScalar
  split
  · rename_i rest
    exact (readTextFrom_blames _ _ _ _).bind fun found _ => failsWith_ok _
  · split
    · exact failsWith_ok _
    · split
      · exact (readNumber_blames true _).mono (Blames.mono (List.suffix_cons _ _).isInfix)
      · exact readNumber_blames false _

/-! ## Lists and mappings -/

section Inside

variable {α : Type} {start close : Char} {reader : InsideReader α} {toValue : List α → Value} {fuel : Nat}
  (hreader : ∀ s, FailsWith (Blames s) (reader fuel s))
include hreader

theorem IsBracket.blames (hb : IsBracket start close reader toValue) (s : List Char) :
    FailsWith (Blames (start :: s)) (readValue (fuel + 1) (start :: s)) := by
  by_cases hclose : close ∈ (skipGap s).head?
  · obtain ⟨after, hskip⟩ := List.head?_eq_some_iff.1 hclose
    rw [hb.empty fuel s after hskip]
    exact failsWith_ok _
  · rw [hb.inside fuel s hclose]
    have hinside := (hreader (skipGap s)).mono (Blames.mono ((skipGap_isInfix s).trans (List.suffix_cons start s).isInfix))
    exact hinside.bind fun found _ => failsWith_ok _

theorem readMore_blames (close : Char) (m : α) (rest : List Char) :
    FailsWith (Blames rest) (readMore reader close fuel m rest) := by
  unfold readMore
  split
  · exact failsWith_error (by rintro _ ⟨⟩)
  · rename_i c after hskip
    have hafter : skipGap after <:+: rest :=
      ((skipGap_isInfix after).trans (List.suffix_cons c after).isInfix).trans (hskip ▸ skipGap_isInfix rest)
    split
    · exact failsWith_ok _
    · split
      · exact ((hreader _).mono (Blames.mono hafter)).bind fun found _ => failsWith_ok _
      · exact failsWith_error (by rintro _ ⟨⟩)

end Inside

section Steps

variable {fuel : Nat}

theorem readValue_blames_succ (hitems : ∀ s, FailsWith (Blames s) (readItems fuel s))
    (hentries : ∀ s, FailsWith (Blames s) (readEntries fuel s)) (s : List Char) :
    FailsWith (Blames s) (readValue (fuel + 1) s) := by
  by_cases hlist : '[' ∈ s.head?
  · obtain ⟨tail, rfl⟩ := List.head?_eq_some_iff.1 hlist
    exact isBracket_list.blames hitems tail
  by_cases hdict : '\x7b' ∈ s.head?
  · obtain ⟨tail, rfl⟩ := List.head?_eq_some_iff.1 hdict
    exact isBracket_dict.blames hentries tail
  · rw [readValue_of_head fun c hc => ⟨fun heq => hlist (heq ▸ hc), fun heq => hdict (heq ▸ hc)⟩]
    exact readScalar_blames s

theorem readItems_blames_succ (hvalues : ∀ s, FailsWith (Blames s) (readValue fuel s))
    (hitems : ∀ s, FailsWith (Blames s) (readItems fuel s)) (s : List Char) :
    FailsWith (Blames s) (readItems (fuel + 1) s) := by
  rw [readItems_eq]
  refine (hvalues s).bind fun found hfound => ?_
  obtain ⟨piece, hpiece, -⟩ := exists_spells hfound
  exact (readMore_blames hitems _ _ _).mono (Blames.mono (isInfix_of_append hpiece))

theorem readEntries_blames_succ (hvalues : ∀ s, FailsWith (Blames s) (readValue fuel s))
    (hentries : ∀ s, FailsWith (Blames s) (readEntries fuel s)) (s : List Char) :
    FailsWith (Blames s) (readEntries (fuel + 1) s) := by
  by_cases hquote : '"' ∈ s.head?
  · obtain ⟨tail, rfl⟩ := List.head?_eq_some_iff.1 hquote
    cases hkey : readText tail with
    | error e =>
      rw [readEntries, hkey]
      exact failsWith_error (readTextFrom_blames _ _ _ _ e hkey)
    | ok found =>
      obtain ⟨key, afterKey⟩ := found
      by_cases hcolon : ':' ∈ (skipGap afterKey).head?
      · obtain ⟨afterColon, hskip⟩ := List.head?_eq_some_iff.1 hcolon
        obtain ⟨body, hbody, -⟩ := readText_spells hkey
        have hsplit : '"' :: tail = '"' :: (body ++ ['"']) ++ afterKey := by simp [hbody]
        have hafterKey : afterKey <:+: '"' :: tail := isInfix_of_append hsplit
        have hafterColon : afterColon <:+: afterKey :=
          (List.suffix_cons ':' afterColon).isInfix.trans (hskip ▸ skipGap_isInfix afterKey)
        have hvalue : skipGap afterColon <:+: '"' :: tail := (skipGap_isInfix afterColon).trans (hafterColon.trans hafterKey)
        rw [readEntries_eq hkey hskip]
        refine ((hvalues _).mono (Blames.mono hvalue)).bind fun found hfound => ?_
        obtain ⟨piece, hpiece, -⟩ := exists_spells hfound
        exact (readMore_blames hentries _ _ _).mono (Blames.mono ((isInfix_of_append hpiece).trans hvalue))
      · rw [readEntries, hkey, ok_bind]
        dsimp only
        split
        · rename_i hskip
          exact absurd (by rw [hskip]; rfl) hcolon
        · exact failsWith_error (by rintro _ ⟨⟩)
  · rw [readEntries]
    · exact failsWith_error (by rintro _ ⟨⟩)
    · rintro _ rfl
      exact hquote rfl

end Steps

theorem blames (fuel : Nat) : (∀ s, FailsWith (Blames s) (readValue fuel s)) ∧
    (∀ s, FailsWith (Blames s) (readItems fuel s)) ∧ ∀ s, FailsWith (Blames s) (readEntries fuel s) := by
  -- The three readers call each other with less fuel, so one induction carries all of them.
  induction fuel with
  | zero =>
    refine ⟨fun s => ?_, fun s => ?_, fun s => ?_⟩ <;>
      exact failsWith_error (by rintro _ ⟨⟩)
  | succ fuel ih =>
    obtain ⟨hvalues, hitems, hentries⟩ := ih
    exact ⟨readValue_blames_succ hitems hentries, readItems_blames_succ hvalues hitems,
      readEntries_blames_succ hvalues hentries⟩

/-- A text with a number that is too long to be read holds that many digits in a row. -/
theorem hasLongNumber_of_read {s : List Char} {digits : Nat} (h : read s = .error (.integerTooLong digits)) :
    HasLongNumber s := by
  by_cases hmark : '\ufeff' ∈ s.head?
  · obtain ⟨tail, rfl⟩ := List.head?_eq_some_iff.1 hmark
    cases h
  · have hread : FailsWith (Blames s) (read s) := by
      rw [read_of_head hmark]
      refine (((blames _).1 _).mono (Blames.mono (skipGap_isInfix s))).bind fun found _ => ?_
      split
      · exact failsWith_ok _
      · exact failsWith_error (by rintro _ ⟨⟩)
    exact hread _ h digits rfl

end SearchBox.Json

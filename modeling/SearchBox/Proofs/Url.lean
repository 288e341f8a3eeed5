import Mathlib.Data.List.TakeWhile
import SearchBox.Proofs.Number.Numeral
import SearchBox.Proofs.Text.Letterwise
import SearchBox.Url

/-!
  SearchBox.Proofs.Url — the host of a URL that names it plainly. A host name has no sign that
  parts an authority, so that an authority that is one is its own host (`hostOf_of_isHostName`).
  After a scheme or two slashes the host is what stands before the first slash, question mark or
  hash sign, whatever comes later (`host_of_scheme`, `host_of_slashes`). A text that starts with
  a host name has no scheme and no authority (`host_of_bare`).
-/

namespace SearchBox.Url

open SearchBox.Number SearchBox.Text

/-! ## Host names -/

/-- An ASCII letter or digit, a hyphen or a point. -/
def isHostChar (c : Char) : Bool :=
  c.isAlphanum || c = '-' || c = '.'

def IsHostName (host : List Char) : Prop :=
  host ≠ [] ∧ ∀ c ∈ host, isHostChar c = true

instance : DecidablePred IsHostName := fun host =>
  decidable_of_iff ((!host.isEmpty && host.all isHostChar) = true) (by simp [IsHostName])

/-- A character that ends a host: a path, a query or a fragment starts with it. -/
def endsHost (c : Char) : Bool :=
  c = '/' || c = '?' || c = '#'

/-- What may follow a host: nothing, or a path, a query or a fragment without white space. -/
def IsTail (tail : List Char) : Prop :=
  (∀ c ∈ tail.head?, endsHost c = true) ∧ ∀ c ∈ tail, isBlank c = false

instance : DecidablePred IsTail := fun tail =>
  decidable_of_iff ((tail.head?.all endsHost && tail.all (!isBlank ·)) = true) (by simp [IsTail, Option.all_eq_true])

theorem ne_of_isHostChar {c m : Char} (hc : isHostChar c = true) (hm : isHostChar m = false) : c ≠ m := by
  rintro rfl
  rw [hc] at hm
  cases hm

theorem toNat_of_isHostChar {c : Char} (h : isHostChar c = true) : 45 ≤ c.toNat ∧ c.toNat ≤ 122 := by
  simp only [isHostChar, Bool.or_eq_true, decide_eq_true_eq] at h
  rcases h with (h | rfl) | rfl
  · rcases (Bool.or_eq_true _ _).mp h with hletter | hdigit
    · rcases (Bool.or_eq_true _ _).mp hletter with hupper | hlower
      · have hrange : 65 ≤ c.toNat ∧ c.toNat ≤ 90 := of_decide_eq_true hupper
        omega
      · obtain ⟨hlow, hhigh⟩ := (Bool.and_eq_true _ _).mp hlower
        have hlow : 97 ≤ c.toNat := of_decide_eq_true hlow
        have hhigh : c.toNat ≤ 122 := of_decide_eq_true hhigh
        omega
    · have hrange := digit_bounds hdigit
      omega
  · decide
  · decide

theorem isBlank_of_isHostChar {c : Char} (h : isHostChar c = true) : isBlank c = false :=
  covers_eq_false_of_avoids (by decide) (toNat_of_isHostChar h).1 (toNat_of_isHostChar h).2

theorem not_mem_of_isHostName {host : List Char} (h : IsHostName host) {m : Char} (hm : isHostChar m = false) :
    m ∉ host :=
  fun hmem => ne_of_isHostChar (h.2 m hmem) hm rfl

/-! ## Cutting -/

theorem cutAt_of_not_mem {c : Char} {s : List Char} (h : c ∉ s) : cutAt c s = (s, none) := by
  have hnone : s.dropWhile (· ≠ c) = [] :=
    List.dropWhile_eq_nil_iff.2 fun d hd => by simpa using fun he : d = c => h (he ▸ hd)
  rw [cutAt, hnone]

theorem cutAt_append {c : Char} {a : List Char} (h : c ∉ a) (b : List Char) : cutAt c (a ++ c :: b) = (a, some b) := by
  have hall : ∀ d ∈ a, (decide (d ≠ c)) = true := fun d hd => by simpa using fun he : d = c => h (he ▸ hd)
  have hdrop : (a ++ c :: b).dropWhile (· ≠ c) = c :: b := by
    rw [List.dropWhile_append_of_pos hall]
    simp
  have htake : (a ++ c :: b).takeWhile (· ≠ c) = a := by
    rw [List.takeWhile_append_of_pos hall]
    simp
  rw [cutAt, hdrop, htake]

theorem afterLast_of_not_mem {c : Char} {s : List Char} (h : c ∉ s) : afterLast c s = s := by
  have hall : s.reverse.takeWhile (· ≠ c) = s.reverse :=
    List.takeWhile_eq_self_iff.2 fun d hd => by simpa using fun he : d = c => h (he ▸ List.mem_reverse.1 hd)
  rw [afterLast, hall, List.reverse_reverse]

/-! ## The authority -/

/-- Visible text with no control character in front is read as it is. -/
theorem cleaned_of_visible {s : List Char} (hfront : ∀ c ∈ s.head?, 32 < c.toNat) (hs : ∀ c ∈ s, isBlank c = false) :
    cleaned s = s := by
  have hkeep : s.dropWhile (·.toNat ≤ 32) = s := by
    cases s with
    | nil => rfl
    | cons c s => rw [List.dropWhile_cons, if_neg (by simpa using hfront c rfl)]
  have hbreaks : isBlank '\t' = true ∧ isBlank '\r' = true ∧ isBlank '\n' = true := by decide
  rw [cleaned, hkeep, List.filter_eq_self]
  intro c hc
  have hvisible := hs c hc
  simp only [Bool.and_eq_true, decide_eq_true_eq]
  refine ⟨⟨?_, ?_⟩, ?_⟩ <;> rintro rfl <;> simp [hbreaks] at hvisible

/-- What stands before the first colon is a scheme if it looks like one. -/
theorem dropScheme_of_scheme {scheme : List Char} (hcolon : ':' ∉ scheme)
    (hscheme : ((scheme.head?.map Char.isAlpha).getD false && scheme.all isSchemeChar) = true) (rest : List Char) :
    dropScheme (scheme ++ ':' :: rest) = rest := by
  rw [dropScheme, cutAt_append hcolon]
  simp only [hscheme, if_true]

/-- A colon after a character that no scheme has ends no scheme. -/
theorem dropScheme_of_not_schemeChar {a : List Char} {c : Char} (ha : ':' ∉ a) (hc : isSchemeChar c = false)
    (hcolon : c ≠ ':') (b : List Char) : dropScheme (a ++ c :: b) = a ++ c :: b := by
  by_cases hb : ':' ∈ b
  · obtain ⟨b₁, b₂, rfl, hb₁⟩ := List.eq_append_cons_of_mem hb
    have hfront : ':' ∉ a ++ c :: b₁ := by simp [ha, hb₁, Ne.symm hcolon]
    have hcut := cutAt_append hfront b₂
    rw [List.append_assoc, List.cons_append] at hcut
    rw [dropScheme, hcut]
    simp [hc]
  · have hnone : ':' ∉ a ++ c :: b := by simp [ha, hb, Ne.symm hcolon]
    rw [dropScheme, cutAt_of_not_mem hnone]

section Plain

variable {host tail : List Char}

theorem takeWhile_host (hhost : IsHostName host) (htail : IsTail tail) :
    (host ++ tail).takeWhile (fun c => c ≠ '/' && c ≠ '?' && c ≠ '#') = host := by
  have hall : ∀ c ∈ host, (c ≠ '/' && c ≠ '?' && c ≠ '#') = true := by
    intro c hc
    have hne := fun {m : Char} (hm : isHostChar m = false) => ne_of_isHostChar (hhost.2 c hc) hm
    simp [hne (m := '/') (by decide), hne (m := '?') (by decide), hne (m := '#') (by decide)]
  refine takeWhile_run hall fun d hd => ?_
  have hends := htail.1 d hd
  simp only [endsHost, Bool.or_eq_true, decide_eq_true_eq] at hends
  rcases hends with (rfl | rfl) | rfl <;> simp

theorem authority_of_slashes {url : List Char} (hhost : IsHostName host) (htail : IsTail tail)
    (hurl : dropScheme (cleaned url) = '/' :: '/' :: (host ++ tail)) : authority url = host := by
  rw [authority, hurl]
  exact takeWhile_host hhost htail

theorem hostOf_of_isHostName (hhost : IsHostName host) : hostOf host = lower host := by
  have hnot := fun {m : Char} (hm : isHostChar m = false) => not_mem_of_isHostName hhost hm
  rw [hostOf, afterLast_of_not_mem (hnot (by decide))]
  simp only [cutAt_of_not_mem (hnot (m := '[') (by decide)), cutAt_of_not_mem (hnot (m := ':') (by decide)),
    cutAt_of_not_mem (hnot (m := '%') (by decide))]

/-- A host name after two slashes is the host. -/
theorem host_of_dropScheme {url : List Char} (hhost : IsHostName host) (htail : IsTail tail)
    (hurl : dropScheme (cleaned url) = '/' :: '/' :: (host ++ tail)) : Url.host url = lower host := by
  have hopen : host.contains '[' = false := by simpa using not_mem_of_isHostName hhost (m := '[') (by decide)
  have hclose : host.contains ']' = false := by simpa using not_mem_of_isHostName hhost (m := ']') (by decide)
  have hplain : host.all (fun c => !treacherous.contains c.toNat) = true := by
    have hfar : ∀ n ∈ treacherous, 122 < n := by decide
    refine List.all_eq_true.2 fun c hc => ?_
    have hle := (toNat_of_isHostChar (hhost.2 c hc)).2
    simpa using fun hmem => Nat.not_lt.2 hle (hfar _ hmem)
  rw [Url.host, authority_of_slashes hhost htail hurl]
  simp only [bracketsFit, hopen, hclose, hplain, Bool.and_self, if_true]
  exact hostOf_of_isHostName hhost

theorem isBlank_of_mem_hostTail (hhost : IsHostName host) (htail : IsTail tail) :
    ∀ c ∈ host ++ tail, isBlank c = false := by
  intro c hc
  rcases List.mem_append.1 hc with hc | hc
  · exact isBlank_of_isHostChar (hhost.2 c hc)
  · exact htail.2 c hc

/-- After a scheme and two slashes, the host is what stands before the next sign that ends it. -/
theorem host_of_scheme {scheme : List Char} (hscheme : scheme ∈ ["http".toList, "https".toList])
    (hhost : IsHostName host) (htail : IsTail tail) :
    Url.host (scheme ++ ':' :: '/' :: '/' :: (host ++ tail)) = lower host := by
  have hschemes : ∀ s ∈ ["http".toList, "https".toList], s.head? = some 'h' ∧ s.all (!isBlank ·) = true ∧ ':' ∉ s ∧
      ((s.head?.map Char.isAlpha).getD false && s.all isSchemeChar) = true := by decide
  obtain ⟨hhead, hvisible, hcolon, hlooks⟩ := hschemes scheme hscheme
  have hmarks : isBlank ':' = false ∧ isBlank '/' = false := by decide
  refine host_of_dropScheme hhost htail ?_
  rw [cleaned_of_visible, dropScheme_of_scheme hcolon hlooks]
  · intro c hc
    rw [List.head?_append, hhead] at hc
    cases hc
    decide
  · intro c hc
    simp only [List.mem_append, List.mem_cons] at hc
    rcases hc with hc | rfl | rfl | rfl | hc
    · exact (Bool.not_eq_true' _).mp (List.all_eq_true.1 hvisible c hc)
    · exact hmarks.1
    · exact hmarks.2
    · exact hmarks.2
    · exact isBlank_of_mem_hostTail hhost htail c (List.mem_append.2 hc)

/-- A host name after two slashes and no scheme is the host. -/
theorem host_of_slashes (hhost : IsHostName host) (htail : IsTail tail) :
    Url.host ('/' :: '/' :: (host ++ tail)) = lower host := by
  have hmark : isBlank '/' = false := by decide
  refine host_of_dropScheme hhost htail ?_
  rw [cleaned_of_visible]
  · exact dropScheme_of_not_schemeChar (a := []) List.not_mem_nil (by decide) (by decide) _
  · exact fun c hc => by cases hc; decide
  · exact List.forall_mem_cons.2 ⟨hmark, List.forall_mem_cons.2 ⟨hmark, isBlank_of_mem_hostTail hhost htail⟩⟩

/-- Without slashes in front there is no host, whatever a host name is followed by: a colon comes
    too late for a scheme. -/
theorem host_of_bare (hhost : IsHostName host) (htail : IsTail tail) : Url.host (host ++ tail) = [] := by
  obtain ⟨c, host, rfl⟩ := List.exists_cons_of_ne_nil hhost.1
  have hc := hhost.2 c List.mem_cons_self
  have hclean : cleaned (c :: host ++ tail) = c :: host ++ tail := by
    refine cleaned_of_visible (fun d hd => ?_) (isBlank_of_mem_hostTail hhost htail)
    cases hd
    have := (toNat_of_isHostChar hc).1
    omega
  have hcolon : ':' ∉ c :: host := not_mem_of_isHostName hhost (by decide)
  have hscheme : dropScheme (c :: host ++ tail) = c :: host ++ tail := by
    cases tail with
    | nil => rw [List.append_nil, dropScheme, cutAt_of_not_mem hcolon]
    | cons d tail =>
      have hd : endsHost d = true := htail.1 d rfl
      simp only [endsHost, Bool.or_eq_true, decide_eq_true_eq] at hd
      rcases hd with (rfl | rfl) | rfl <;> exact dropScheme_of_not_schemeChar hcolon (by decide) (by decide) _
  have hslash : c ≠ '/' := ne_of_isHostChar hc (by decide)
  have hauthority : authority (c :: host ++ tail) = [] := by
    rw [authority, hclean, hscheme, List.cons_append]
    split
    · rename_i heq
      exact absurd (List.cons.inj heq).1 hslash
    · rfl
  rw [Url.host, hauthority]
  rfl

end Plain

end SearchBox.Url

import SearchBox.Proofs.Fallible
import SearchBox.Proofs.Url
import SearchBox.Record.Kind

/-!
  SearchBox.Proofs.Record.Sites — which site's tag a record has. A host lies on a domain just if
  the domain's labels end the host's (`isOnDomain_iff`). No domain of one site ends a domain of
  another, so that the table's order does not matter (`siteTag?_eq_some_iff`). Of a URL with a
  scheme, or without `://` anywhere, only the host counts (`hostOf_of_isHostName`). A URL without
  a scheme that holds `://` after its host is taken to have one: its host is not found
  (`hostOf_eq_nil`), and what the host says is lost (`kind_of_url`).
-/

namespace SearchBox.Record

open SearchBox.Text SearchBox.Url

/-! ## Domains -/

/-- Whether a host is one of the domains of a tag, or lies under one. -/
def IsOnSite (host : List Char) (tag : String) : Prop :=
  ∃ domains, (domains, tag) ∈ siteTags ∧ ∃ d ∈ domains, host = d.toList ∨ '.' :: d.toList <:+ host

theorem isOnDomain_iff {host domain : List Char} : isOnDomain host domain = true ↔ '.' :: domain <:+ '.' :: host := by
  rw [isOnDomain, Bool.or_eq_true, decide_eq_true_eq, List.isSuffixOf_iff_suffix, List.suffix_cons_iff, List.cons.injEq,
    eq_comm (a := host)]
  simp

/-- No domain of a tag lies on a domain of another one. -/
theorem siteTags_apart : ∀ e ∈ siteTags, ∀ e' ∈ siteTags, ∀ d ∈ e.1, ∀ d' ∈ e'.1,
    '.' :: d.toList <:+ '.' :: d'.toList → e.2 = e'.2 := by
  decide

theorem isOnDomain_eq_true_iff {host : List Char} {d : String} :
    isOnDomain host d.toList = true ↔ host = d.toList ∨ '.' :: d.toList <:+ host := by
  rw [isOnDomain, Bool.or_eq_true, decide_eq_true_eq, List.isSuffixOf_iff_suffix]

/-- A host belongs to one site at most: of two domains that end it, one ends the other. -/
theorem IsOnSite.eq {host : List Char} {tag tag' : String} (h : IsOnSite host tag) (h' : IsOnSite host tag') :
    tag = tag' := by
  obtain ⟨domains, hmem, d, hd, hon⟩ := h
  obtain ⟨domains', hmem', d', hd', hon'⟩ := h'
  have hends := isOnDomain_iff.1 (isOnDomain_eq_true_iff.2 hon)
  have hends' := isOnDomain_iff.1 (isOnDomain_eq_true_iff.2 hon')
  rcases List.suffix_or_suffix_of_suffix hends hends' with hsub | hsub
  · exact siteTags_apart _ hmem _ hmem' d hd d' hd' hsub
  · exact (siteTags_apart _ hmem' _ hmem d' hd' d hd hsub).symm

theorem isOnSite_of_siteTag? {host : List Char} {tag : String} (h : siteTag? host = some tag) : IsOnSite host tag := by
  obtain ⟨⟨domains, tag'⟩, hmem, hfound⟩ := List.exists_of_findSome?_eq_some h
  simp only [Option.ite_none_right_eq_some, Option.some.injEq] at hfound
  obtain ⟨hany, rfl⟩ := hfound
  obtain ⟨d, hd, hon⟩ := List.any_eq_true.1 hany
  exact ⟨domains, hmem, d, hd, isOnDomain_eq_true_iff.1 hon⟩

theorem siteTag?_eq_some_iff {host : List Char} {tag : String} : siteTag? host = some tag ↔ IsOnSite host tag := by
  refine ⟨isOnSite_of_siteTag?, fun h => ?_⟩
  obtain ⟨domains, hmem, d, hd, hon⟩ := id h
  have hany : (domains.any fun d => isOnDomain host d.toList) = true :=
    List.any_eq_true.2 ⟨d, hd, isOnDomain_eq_true_iff.2 hon⟩
  cases hfirst : siteTag? host with
  | none =>
    have hnone := List.findSome?_eq_none_iff.1 hfirst _ hmem
    simp [hany] at hnone
  | some tag' => rw [h.eq (isOnSite_of_siteTag? hfirst)]

/-! ## Hosts of records -/

section Hosts

variable {host tail : List Char}

/-- A text with a scheme is read as it stands. -/
theorem hostOf_of_scheme {scheme : List Char} (hscheme : scheme ∈ ["http".toList, "https".toList])
    (hhost : IsHostName host) (htail : IsTail tail) :
    Record.hostOf (scheme ++ ':' :: '/' :: '/' :: (host ++ tail)) = lower host := by
  have hin : occursIn "://".toList (scheme ++ ':' :: '/' :: '/' :: (host ++ tail)) = true :=
    occursIn_iff.2 ⟨scheme, host ++ tail, by simp⟩
  have hne : (scheme ++ ':' :: '/' :: '/' :: (host ++ tail)).isEmpty = false := by simp
  rw [Record.hostOf, hne, hin, if_pos rfl, if_neg Bool.false_ne_true, host_of_scheme hscheme hhost htail, lower_lower]

/-- Without a scheme and `://`, slashes are put in front of the host. -/
theorem hostOf_of_isHostName (hhost : IsHostName host) (htail : IsTail tail) (hin : ¬ "://".toList <:+: host ++ tail) :
    Record.hostOf (host ++ tail) = lower host := by
  have hne : (host ++ tail).isEmpty = false := by simp [hhost.1]
  have hnot : occursIn "://".toList (host ++ tail) = false := Bool.eq_false_iff.2 fun h => hin (occursIn_iff.1 h)
  rw [Record.hostOf, hne, hnot, if_neg Bool.false_ne_true, if_neg Bool.false_ne_true, host_of_slashes hhost htail,
    lower_lower]

/-- A `://` after the host hides it. -/
theorem hostOf_eq_nil (hhost : IsHostName host) (htail : IsTail tail) (hin : "://".toList <:+: host ++ tail) :
    Record.hostOf (host ++ tail) = [] := by
  have hne : (host ++ tail).isEmpty = false := by simp [hhost.1]
  rw [Record.hostOf, hne, occursIn_iff.2 hin, if_pos rfl, if_neg Bool.false_ne_true, host_of_bare hhost htail]
  rfl

/-- A character that does not stand in the first of two texts stands in the second. -/
theorem exists_append_of_not_mem {c : Char} {a b before rest : List Char} (hc : c ∉ a)
    (h : before ++ c :: rest = a ++ b) : ∃ mid, before = a ++ mid ∧ b = mid ++ c :: rest := by
  rcases List.append_eq_append_iff.1 h with ⟨mid, rfl, hmid⟩ | ⟨mid, rfl, hmid⟩
  · cases mid with
    | nil => exact ⟨[], by simp, by simpa using hmid.symm⟩
    | cons d mid =>
      obtain ⟨rfl, -⟩ := List.cons.inj hmid
      exact absurd (List.mem_append_right _ List.mem_cons_self) hc
  · exact ⟨mid, rfl, hmid⟩

/-- A host holds no part of `://`. -/
theorem isInfix_hostTail_iff (hhost : IsHostName host) : "://".toList <:+: host ++ tail ↔ "://".toList <:+: tail := by
  constructor
  · rintro ⟨before, after, h⟩
    have hsplit : before ++ ':' :: '/' :: '/' :: after = host ++ tail := by rw [← h]; simp
    obtain ⟨mid, -, hmid⟩ := exists_append_of_not_mem (not_mem_of_isHostName hhost (by decide)) hsplit
    exact ⟨mid, after, by rw [hmid]; simp⟩
  · exact fun h => h.trans (List.suffix_append _ _).isInfix

/-! ## Notes -/

theorem isSign_of_mem : ∀ m ∈ [':', '/', '?', '#'], isSign m = true := by
  have hall : ([':', '/', '?', '#'].all isSign) = true := by decide
  exact List.all_eq_true.1 hall

/-- Lower-casing makes no colon of a host, and keeps the sign after it. -/
theorem exists_lower_hostTail (hhost : ∀ c ∈ host, isHostChar c = true) (htail : IsTail tail) (afterCased : Bool) :
    ∃ front rest, lowerFrom afterCased (host ++ tail) = front ++ rest ∧ ':' ∉ front ∧
      ∀ c ∈ rest.head?, endsHost c = true := by
  induction host generalizing afterCased with
  | nil =>
    refine ⟨[], lowerFrom afterCased tail, rfl, List.not_mem_nil, fun d hd => ?_⟩
    cases tail with
    | nil => cases hd
    | cons c tail =>
      have hends : endsHost c = true := htail.1 c rfl
      have hsign : isSign c = true := by
        simp only [endsHost, Bool.or_eq_true, decide_eq_true_eq] at hends
        rcases hends with (rfl | rfl) | rfl <;> exact isSign_of_mem _ (by simp)
      obtain ⟨e, after, hsame, ⟨-, heq⟩ | ⟨-, heq⟩⟩ := lowerFrom_cons afterCased c tail
      all_goals
        rw [heq] at hd
        cases hd
        rwa [eq_of_sameLetter_sign hsign (sameLetter_symm hsame)]
  | cons c host ih =>
    obtain ⟨hc, hhost⟩ := List.forall_mem_cons.1 hhost
    obtain ⟨e, after, hsame, ⟨-, heq⟩ | ⟨rfl, -⟩⟩ := lowerFrom_cons afterCased c (host ++ tail)
    · obtain ⟨front, rest, hlower, hcolon, hends⟩ := ih hhost after
      refine ⟨e :: front, rest, by rw [List.cons_append, heq, hlower, List.cons_append], ?_, hends⟩
      rintro (_ | ⟨_, hmem⟩)
      · exact ne_of_isHostChar hc (by decide) (eq_of_sameLetter_sign (isSign_of_mem ':' (by decide)) hsame)
      · exact hcolon hmem
    · exact absurd hc (by decide)

/-- A host with what follows it is no note's URL. -/
theorem not_isPrefixOf_lower_hostTail (hhost : IsHostName host) (htail : IsTail tail) :
    "note://".toList.isPrefixOf (lower (host ++ tail)) = false := by
  obtain ⟨front, rest, hlower, hcolon, hends⟩ := exists_lower_hostTail hhost.2 htail false
  rw [Bool.eq_false_iff, Ne, List.isPrefixOf_iff_prefix, lower, hlower]
  rintro ⟨after, h⟩
  have hsplit : "note".toList ++ ':' :: ('/' :: '/' :: after) = front ++ rest := by rw [← h]; simp
  obtain ⟨mid, hnote, rfl⟩ := exists_append_of_not_mem hcolon hsplit
  -- What follows the host would start with a letter of the word, or with its colon.
  have hletters : ("note".toList ++ [':']).all (!endsHost ·) = true := by decide
  cases mid with
  | nil => exact absurd (hends ':' rfl) (by decide)
  | cons c mid =>
    have hc := List.all_eq_true.1 hletters c (by rw [hnote]; simp)
    rw [hends c rfl] at hc
    cases hc

/-- What a URL may start with in front of its host. -/
def urlStarts : List (List Char) :=
  ["http://".toList, "https://".toList, []]

theorem eq_nil_or_scheme_of_mem_urlStarts {start : List Char} (h : start ∈ urlStarts) :
    start = [] ∨ ∃ scheme ∈ ["http".toList, "https".toList], start = scheme ++ [':', '/', '/'] := by
  simp only [urlStarts, List.mem_cons, List.not_mem_nil, or_false] at h
  rcases h with rfl | rfl | rfl
  · exact .inr ⟨_, List.mem_cons_self, by decide⟩
  · exact .inr ⟨_, List.mem_cons_of_mem _ List.mem_cons_self, by decide⟩
  · exact .inl rfl

theorem isSolid_url {start : List Char} (hstart : start ∈ urlStarts) (hhost : IsHostName host) (htail : IsTail tail) :
    IsSolid (start ++ (host ++ tail)) := by
  have hstarts : (urlStarts.all fun s => s.all (!isBlank ·)) = true := by decide
  refine ⟨by simp [hhost.1], fun c hc => ?_⟩
  rcases List.mem_append.1 hc with hc | hc
  · exact (Bool.not_eq_true' _).mp (List.all_eq_true.1 (List.all_eq_true.1 hstarts start hstart) c hc)
  · exact isBlank_of_mem_hostTail hhost htail c hc

/-- A URL of a host is not a note's. -/
theorem not_isPrefixOf_lower_url {start : List Char} (hstart : start ∈ urlStarts) (hhost : IsHostName host)
    (htail : IsTail tail) : "note://".toList.isPrefixOf (lower (start ++ (host ++ tail))) = false := by
  by_cases hnil : start = []
  · rw [hnil, List.nil_append]
    exact not_isPrefixOf_lower_hostTail hhost htail
  · have hstarts : ∀ s ∈ urlStarts, s ≠ [] → s = 'h' :: s.tail := by decide
    have hlower : ∃ s, lower ('h' :: (start.tail ++ (host ++ tail))) = 'h' :: s := by
      rw [lower, lowerFrom, if_neg (by decide), if_neg (by decide), show lowerChar 'h' = 'h' by decide]
      exact ⟨_, rfl⟩
    obtain ⟨s, hs⟩ := hlower
    rw [hstarts start hstart hnil, List.cons_append, hs]
    rfl

/-- The host of a URL is found unless there is no scheme and a `://` later on. -/
theorem hostOf_url {start : List Char} (hstart : start ∈ urlStarts) (hhost : IsHostName host) (htail : IsTail tail) :
    (start ≠ [] ∨ ¬ "://".toList <:+: tail → Record.hostOf (start ++ (host ++ tail)) = lower host) ∧
      (start = [] → "://".toList <:+: tail → Record.hostOf (start ++ (host ++ tail)) = []) := by
  rcases eq_nil_or_scheme_of_mem_urlStarts hstart with rfl | ⟨scheme, hscheme, rfl⟩
  · rw [List.nil_append]
    refine ⟨fun h => ?_, fun _ hin => hostOf_eq_nil hhost htail ((isInfix_hostTail_iff hhost).2 hin)⟩
    refine hostOf_of_isHostName hhost htail fun hin => ?_
    exact h.elim (fun hne => hne rfl) fun hnot => hnot ((isInfix_hostTail_iff hhost).1 hin)
  · refine ⟨fun _ => ?_, fun hnil => by simp at hnil⟩
    rw [List.append_assoc]
    exact hostOf_of_scheme hscheme hhost htail

end Hosts

/-! ## Tags -/

section Tags

variable {r : Record} {type category shown : String} (htype : r.field .type = .ok type)
  (hcategory : r.field .category = .ok category) (hshown : r.field .url = .ok shown)

include htype hcategory hshown in
/-- A record with a URL and no hint that it is a note has its site's tag, or else is an image or
    an article. -/
theorem kind_of_siteTag? (htypeNote : lowerText type ≠ "note") (hcategoryNote : lowerText category ≠ "note")
    (hsolid : IsSolid shown.toList) (hnote : "note://".toList.isPrefixOf (lower shown.toList) = false) :
    (∀ tag, siteTag? (Record.hostOf shown.toList) = some tag → r.kind = .ok tag) ∧
      (siteTag? (Record.hostOf shown.toList) = none → r.kind = .ok "image" ∨ r.kind = .ok "article") := by
  have hbare : r.isBare shown.toList = .ok false := if_neg (by simpa using hsolid.1)
  have hkind : r.kind = .ok (tagOf (lowerText type) (lowerText category) shown.toList) := by
    simp only [kind, hshown, htype, hcategory, ok_bind, strip_of_isEdged hsolid.isEdged, htypeNote, hcategoryNote, hnote,
      hbare]
    rfl
  rw [hkind, tagOf]
  refine ⟨fun tag htag => by rw [htag], fun hnone => ?_⟩
  rw [hnone]
  dsimp only
  split
  · exact .inl rfl
  · exact .inr rfl

include htype hcategory hshown in
/-- What follows the host of a URL says nothing of its site, unless the URL has no scheme and
    holds `://` later on: then its host is not seen. -/
theorem kind_of_url (htypeNote : lowerText type ≠ "note") (hcategoryNote : lowerText category ≠ "note")
    {start host tail : List Char} (hstart : start ∈ urlStarts) (hhost : IsHostName host) (htail : IsTail tail)
    (hurl : shown.toList = start ++ (host ++ tail)) :
    (start ≠ [] ∨ ¬ "://".toList <:+: tail →
      ∀ tag ∈ siteTags.map (·.2), (r.kind = .ok tag ↔ IsOnSite (lower host) tag)) ∧
    (start = [] → "://".toList <:+: tail → r.kind = .ok "image" ∨ r.kind = .ok "article") ∧
    ∃ tag, r.kind = .ok tag ∧ (tag ∈ siteTags.map (·.2) ∨ tag = "image" ∨ tag = "article") := by
  have htags : "image" ∉ siteTags.map (·.2) ∧ "article" ∉ siteTags.map (·.2) := by decide
  obtain ⟨hfound, hhidden⟩ := hostOf_url hstart hhost htail
  have hsolid := isSolid_url hstart hhost htail
  have hnote := not_isPrefixOf_lower_url hstart hhost htail
  rw [← hurl] at hsolid hnote hfound hhidden
  obtain ⟨hsite, hnone⟩ := kind_of_siteTag? htype hcategory hshown htypeNote hcategoryNote hsolid hnote
  refine ⟨fun h tag htag => ?_, fun hnil hin => hnone (by rw [hhidden hnil hin]; decide), ?_⟩
  · rw [hfound h] at hsite hnone
    rw [← siteTag?_eq_some_iff]
    refine ⟨fun hkind => ?_, hsite tag⟩
    cases hcase : siteTag? (lower host) with
    | some tag' =>
      rw [hsite tag' hcase, Except.ok.injEq] at hkind
      rw [hkind]
    | none =>
      rcases hnone hcase with himage | harticle
      · rw [himage, Except.ok.injEq] at hkind
        exact absurd (hkind ▸ htag) htags.1
      · rw [harticle, Except.ok.injEq] at hkind
        exact absurd (hkind ▸ htag) htags.2
  · cases hcase : siteTag? (Record.hostOf shown.toList) with
    | none =>
      rcases hnone hcase with himage | harticle
      · exact ⟨_, himage, .inr (.inl rfl)⟩
      · exact ⟨_, harticle, .inr (.inr rfl)⟩
    | some tag =>
      obtain ⟨domains, hmem, -⟩ := isOnSite_of_siteTag? hcase
      exact ⟨tag, hsite tag hcase, .inl (List.mem_map.2 ⟨_, hmem, rfl⟩)⟩

end Tags

/-- A record of nothing but a URL. -/
def ofUrl (url : String) : Record :=
  .mapping [(.text "url", .text url)]

/-- A later URL in a URL with a scheme is not looked at. -/
theorem kind_of_url_nested :
    let r := ofUrl "https://M.YouTube.com/redirect?q=https://x.com"
    r.field .type = .ok "" ∧ r.field .category = .ok "" ∧
      r.field .url = .ok "https://M.YouTube.com/redirect?q=https://x.com" ∧
      IsHostName "M.YouTube.com".toList ∧ IsTail "/redirect?q=https://x.com".toList ∧
      IsOnSite (lower "M.YouTube.com".toList) "youtube" ∧ r.kind = .ok "youtube" := by
  intro r
  have htype : r.field .type = .ok "" := by decide
  have hcategory : r.field .category = .ok "" := by decide
  have hshown : r.field .url = .ok "https://M.YouTube.com/redirect?q=https://x.com" := by decide
  have hhost : IsHostName "M.YouTube.com".toList := by decide
  have htail : IsTail "/redirect?q=https://x.com".toList := by decide
  have hon : IsOnSite (lower "M.YouTube.com".toList) "youtube" :=
    ⟨_, List.mem_cons_self, "youtube.com", List.mem_cons_self, .inr (by decide)⟩
  have hstart : "https://".toList ∈ urlStarts := by decide
  have hsite := kind_of_url htype hcategory hshown (by decide) (by decide) hstart hhost htail (by decide)
  exact ⟨htype, hcategory, hshown, hhost, htail, hon, (hsite.1 (.inl (by decide)) "youtube" (by decide)).2 hon⟩

/-- In a URL without a scheme a later URL hides the host. -/
theorem kind_of_url_hidden :
    IsHostName "youtube.com".toList ∧ IsTail "/redirect?q=https://x.org".toList ∧
      IsOnSite (lower "youtube.com".toList) "youtube" ∧
      (ofUrl "youtube.com/redirect?q=https://x.org").kind = .ok "article" :=
  ⟨by decide, by decide, ⟨_, List.mem_cons_self, "youtube.com", List.mem_cons_self, .inl (by decide)⟩,
    by decide⟩

end SearchBox.Record

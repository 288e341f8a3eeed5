import SearchBox.Proofs.Fallible
import SearchBox.Proofs.Query.Parts

/-!
  SearchBox.Proofs.Query.Append — the filter of tokens that follow other tokens. A token adds to a
  filter what it adds to an empty one, less the values that are kept once and are there already
  (`addToken_followedBy`). So tokens make of any filter this filter followed by their own one
  (`foldlM_addToken_eq`), and all laws of lists of tokens come from there: what each field holds,
  that a token changes its own field only, and that a value said again changes nothing
  (`ofTokens_append`).
-/

namespace SearchBox.Query

open SearchBox.Calendar SearchBox.Text

/-! ## Values after others -/

/-- The values of a part with those of a later filter: terms pile up, and of other values only
    the new ones are added. -/
def Part.follow (p : Part) (old new : List String) : List String :=
  match p with
  | .terms => old ++ new
  | _ => old ++ new.filter (· ∉ old)

section Parts

variable {p : Part}

theorem Part.follow_of_ne_terms (hp : p ≠ .terms) (old new : List String) :
    p.follow old new = old ++ new.filter (· ∉ old) := by
  cases p <;> first | rfl | exact absurd rfl hp

theorem Part.join_of_ne_terms (hp : p ≠ .terms) (old new : List String) :
    p.join old new = new.foldl (fun values v => addNew v values) old := by
  cases p <;> first | rfl | exact absurd rfl hp

theorem Part.follow_nil (p : Part) (old : List String) : p.follow old [] = old := by
  cases p <;> simp [follow]

theorem Part.mem_follow {v : String} {old new : List String} : v ∈ p.follow old new ↔ v ∈ old ∨ v ∈ new := by
  by_cases hp : p = .terms
  · subst hp
    exact List.mem_append
  · rw [follow_of_ne_terms hp, List.mem_append, List.mem_filter, decide_eq_true_eq]
    tauto

theorem addNew_follow (v : String) (old new : List String) :
    addNew v (old ++ new.filter (· ∉ old)) = old ++ (addNew v new).filter (· ∉ old) := by
  unfold addNew
  by_cases hold : v ∈ old <;> by_cases hnew : v ∈ new <;> simp [hold, hnew]

/-- Values that are added after others are added to the later ones of them. -/
theorem Part.join_follow (p : Part) (old mid new : List String) :
    p.join (p.follow old mid) new = p.follow old (p.join mid new) := by
  by_cases hp : p = .terms
  · subst hp
    exact List.append_assoc old mid new
  · simp only [join_of_ne_terms hp, follow_of_ne_terms hp]
    induction new generalizing mid with
    | nil => rfl
    | cons v new ih => rw [List.foldl_cons, List.foldl_cons, addNew_follow, ih]

/-- Values that are all there add nothing, terms apart. -/
theorem Part.join_of_subset (hp : p ≠ .terms) {old new : List String} (h : ∀ v ∈ new, v ∈ old) :
    p.join old new = old := by
  have hnone : new.filter (· ∉ old) = [] := by
    rw [List.filter_eq_nil_iff]
    intro v hv
    simpa using h v hv
  rw [join_of_ne_terms hp, foldl_addNew, hnone, List.eraseDups_nil, List.append_nil]

end Parts

/-! ## One filter after another -/

namespace Filter

/-- The filter with the values of a later one after its own. The later one's dates count. -/
def followedBy (f g : Filter) : Filter where
  terms := Part.terms.follow f.terms g.terms
  choices := f.choices ++ g.choices
  phrases := Part.phrases.follow f.phrases g.phrases
  excludedTerms := Part.excludedTerms.follow f.excludedTerms g.excludedTerms
  excludedPhrases := Part.excludedPhrases.follow f.excludedPhrases g.excludedPhrases
  objects := Part.objects.follow f.objects g.objects
  texts := Part.texts.follow f.texts g.texts
  types := Part.types.follow f.types g.types
  formats := Part.formats.follow f.formats g.formats
  since := g.since.or f.since
  day := g.day.or f.day
  sites := Part.sites.follow f.sites g.sites
  tags := Part.tags.follow f.tags g.tags
  freeText := f.freeText

theorem part_followedBy (f g : Filter) (p : Part) : (f.followedBy g).part p = p.follow (f.part p) (g.part p) := by
  cases p <;> rfl

theorem followedBy_withPart (f g : Filter) (values : List String) (p : Part) :
    f.followedBy (g.withPart values p) = (f.followedBy g).withPart (p.follow (f.part p) values) p := by
  cases p <;> rfl

theorem followedBy_empty (f : Filter) : f.followedBy {} = f := by
  simp [followedBy, Part.follow_nil]

theorem withPart_part (f : Filter) (p : Part) : f.withPart (f.part p) p = f := by
  cases p <;> rfl

/-- Two filters differ at most in what tokens of one kind add to. -/
structure SameBut (kind : TokenKind) (f g : Filter) : Prop where
  part : ∀ p, kind.part? ≠ some p → f.part p = g.part p
  choices : kind ≠ .choice → f.choices = g.choices
  since : kind ≠ .date → f.since = g.since
  day : kind ≠ .date → f.day = g.day

theorem SameBut.followedBy {kind : TokenKind} {f g : Filter} (h : f.SameBut kind g) (later : Filter) :
    (f.followedBy later).SameBut kind (g.followedBy later) where
  part p hp := by rw [part_followedBy, part_followedBy, h.part p hp]
  choices hk := congrArg (· ++ later.choices) (h.choices hk)
  since hk := congrArg later.since.or (h.since hk)
  day hk := congrArg later.day.or (h.day hk)

end Filter

/-! ## Tokens -/

section Tokens

variable (clock : Clock) (lexicon : Lexicon)

theorem addDate_followedBy (f g : Filter) (value : String) :
    (f.followedBy g).addDate clock lexicon value = (g.addDate clock lexicon value).map f.followedBy := by
  unfold Filter.addDate
  dsimp only
  split
  · rfl
  · split
    · rfl
    · split <;> rfl

/-- What a token adds does not depend on what was there before. -/
theorem addToken_followedBy (f g : Filter) (t : Token) :
    (f.followedBy g).addToken clock lexicon t = (g.addToken clock lexicon t).map f.followedBy := by
  obtain ⟨kind, values, start, stop⟩ := t
  cases values with
  | nil => cases kind <;> rfl
  | cons v vs =>
    cases hp : kind.part? with
    | some p =>
      rw [addToken_of_part? clock lexicon hp rfl, addToken_of_part? clock lexicon hp rfl, Filter.part_followedBy,
        Part.join_follow]
      exact congrArg Except.ok (Filter.followedBy_withPart f g _ p).symm
    | none =>
      cases kind with
      | choice =>
        cases vs with
        | nil => rfl
        | cons w vs => simp [Filter.addToken, Filter.followedBy, Except.map]
      | date => exact addDate_followedBy clock lexicon f g v
      | _ => cases hp

theorem foldlM_addToken_followedBy (ts : List Token) (f g : Filter) :
    ts.foldlM (Filter.addToken clock lexicon) (f.followedBy g) =
      (ts.foldlM (Filter.addToken clock lexicon) g).map f.followedBy := by
  induction ts generalizing g with
  | nil => rfl
  | cons t ts ih =>
    rw [List.foldlM_cons, List.foldlM_cons, addToken_followedBy]
    cases g.addToken clock lexicon t with
    | error e => rfl
    | ok g' => exact ih g'

/-- Tokens make of a filter this filter followed by their own one. -/
theorem foldlM_addToken_eq (ts : List Token) (f : Filter) :
    ts.foldlM (Filter.addToken clock lexicon) f =
      (ts.foldlM (Filter.addToken clock lexicon) {}).map f.followedBy := by
  have h := foldlM_addToken_followedBy clock lexicon ts f {}
  rwa [Filter.followedBy_empty] at h

variable {clock lexicon}

theorem exists_of_addDate {f g : Filter} {value : String} (h : f.addDate clock lexicon value = .ok g) :
    ∃ since day, g = { f with since := since, day := day } := by
  unfold Filter.addDate at h
  dsimp only at h
  split at h
  · cases h
    exact ⟨_, _, rfl⟩
  · split at h
    · cases h
      exact ⟨_, _, rfl⟩
    · split at h
      · cases h
        exact ⟨_, _, rfl⟩
      · cases h
        exact ⟨_, _, rfl⟩
      · cases h

/-- A token changes no other field than its own. -/
theorem sameBut_addToken {t : Token} {f g : Filter} (h : f.addToken clock lexicon t = .ok g) : g.SameBut t.kind f := by
  obtain ⟨kind, values, start, stop⟩ := t
  cases values with
  | nil => cases kind <;> cases h
  | cons v vs =>
    cases hp : kind.part? with
    | some p =>
      rw [addToken_of_part? clock lexicon hp rfl] at h
      cases h
      obtain ⟨hchoices, hsince, hday⟩ := f.sameBeside_withPart (p.join (f.part p) (worth lexicon kind v)) p
      refine ⟨?_, fun _ => hchoices, fun _ => hsince, fun _ => hday⟩
      intro q hq
      apply Filter.part_withPart_of_ne
      rintro rfl
      exact hq hp
    | none =>
      cases kind with
      | choice =>
        cases vs with
        | nil => cases h
        | cons w vs =>
          cases h
          exact ⟨fun p _ => by cases p <;> rfl, fun hk => absurd rfl hk, fun _ => rfl, fun _ => rfl⟩
      | date =>
        rw [addToken_date] at h
        obtain ⟨since, day, rfl⟩ := exists_of_addDate h
        exact ⟨fun p _ => by cases p <;> rfl, fun _ => rfl, fun hk => absurd rfl hk, fun hk => absurd rfl hk⟩
      | _ => cases hp

theorem exists_value_of_addToken {t : Token} {f g : Filter} (h : f.addToken clock lexicon t = .ok g) :
    ∃ v vs, t.values = v :: vs := by
  obtain ⟨kind, values, start, stop⟩ := t
  cases values with
  | nil => cases kind <;> cases h
  | cons v vs => exact ⟨v, vs, rfl⟩

/-- What a token stands for is in the filter of all tokens. -/
theorem mem_part_of_mem {ts : List Token} {u : Token} (hu : u ∈ ts) {p : Part} (hp : u.kind.part? = some p) {f g : Filter}
    (h : ts.foldlM (Filter.addToken clock lexicon) f = .ok g) :
    ∃ v vs, u.values = v :: vs ∧ ∀ w ∈ worth lexicon u.kind v, w ∈ g.part p := by
  obtain ⟨before, after, rfl⟩ := List.append_of_mem hu
  rw [List.foldlM_append] at h
  obtain ⟨f₁, -, h⟩ := bind_eq_ok.1 h
  obtain ⟨f₂, hadd, h⟩ := bind_eq_ok.1 h
  rw [foldlM_addToken_eq] at h
  obtain ⟨later, -, rfl⟩ := exists_of_map_eq_ok h
  obtain ⟨v, vs, hv⟩ := exists_value_of_addToken hadd
  rw [addToken_of_part? clock lexicon hp hv] at hadd
  cases hadd
  refine ⟨v, vs, hv, ?_⟩
  intro w hw
  rw [Filter.part_followedBy, Part.mem_follow, Filter.part_withPart_self, Part.mem_join]
  exact .inl (.inr hw)

/-- Kinds of tokens with the same part read their values in the same way. -/
theorem worth_of_part? {k l : TokenKind} {p : Part} (hk : k.part? = some p) (hl : l.part? = some p) (v : String) :
    worth lexicon k v = worth lexicon l v := by
  cases k <;> cases hk <;> cases l <;> cases hl <;> rfl

/-- A token that says again what an earlier one said changes nothing. -/
theorem foldlM_addToken_again {a b : List Token} {t u : Token} {p : Part} (hu : u ∈ a) (hup : u.kind.part? = some p)
    (htp : t.kind.part? = some p) (hvalues : t.values = u.values) (hp : p ≠ .terms) :
    (a ++ t :: b).foldlM (Filter.addToken clock lexicon) {} = (a ++ b).foldlM (Filter.addToken clock lexicon) {} := by
  rw [List.foldlM_append, List.foldlM_append]
  cases h : a.foldlM (Filter.addToken clock lexicon) {} with
  | error e => rfl
  | ok f =>
    obtain ⟨v, vs, hv, hmem⟩ := mem_part_of_mem hu hup h
    rw [worth_of_part? hup htp] at hmem
    have hadd : f.addToken clock lexicon t = .ok f := by
      rw [addToken_of_part? clock lexicon htp (hvalues.trans hv), Part.join_of_subset hp hmem, Filter.withPart_part]
    rw [ok_bind, ok_bind, List.foldlM_cons, hadd, ok_bind]

end Tokens

/-! ## Filters of tokens -/

def Token.asTag (t : Token) : Token :=
  if t.kind = .hashtag then { t with kind := .tag } else t

theorem addToken_asTag (clock : Clock) (lexicon : Lexicon) (f : Filter) (t : Token) :
    f.addToken clock lexicon t.asTag = f.addToken clock lexicon t := by
  unfold Token.asTag
  split
  · rename_i hk
    obtain ⟨kind, values, start, stop⟩ := t
    subst hk
    cases values <;> rfl
  · rfl

section Lists

variable {clock : Clock} {lexicon : Lexicon}

theorem ofTokens_eq_ok {ts : List Token} {h : Filter} :
    Filter.ofTokens clock lexicon ts = .ok h ↔ ∃ f, ts.foldlM (Filter.addToken clock lexicon) {} = .ok f ∧
      { f with freeText := Filter.joined f.terms f.phrases } = h := by
  rw [Filter.ofTokens, bind_eq_ok]
  simp only [pure, Except.pure, Except.ok.injEq]

theorem ofTokens_congr {a b : List Token}
    (h : a.foldlM (Filter.addToken clock lexicon) {} = b.foldlM (Filter.addToken clock lexicon) {}) :
    Filter.ofTokens clock lexicon a = Filter.ofTokens clock lexicon b := by
  rw [Filter.ofTokens, Filter.ofTokens, h]

theorem part_withFreeText (f : Filter) (s : String) (p : Part) : ({ f with freeText := s } : Filter).part p = f.part p := by
  cases p <;> rfl

/-- The filter without a token differs in the field of that token only. -/
theorem ofTokens_without {a b : List Token} {t : Token} {h : Filter}
    (hall : Filter.ofTokens clock lexicon (a ++ t :: b) = .ok h) :
    ∃ h', Filter.ofTokens clock lexicon (a ++ b) = .ok h' ∧ h.SameBut t.kind h' := by
  obtain ⟨g, hg, rfl⟩ := ofTokens_eq_ok.1 hall
  rw [List.foldlM_append] at hg
  obtain ⟨f, hf, hg⟩ := bind_eq_ok.1 hg
  rw [List.foldlM_cons] at hg
  obtain ⟨f', hadd, hg⟩ := bind_eq_ok.1 hg
  rw [foldlM_addToken_eq] at hg
  obtain ⟨later, hlater, rfl⟩ := exists_of_map_eq_ok hg
  have hrest : (a ++ b).foldlM (Filter.addToken clock lexicon) {} = .ok (f.followedBy later) := by
    rw [List.foldlM_append, hf, ok_bind, foldlM_addToken_eq, hlater]
    rfl
  obtain ⟨hpart, hchoices, hsince, hday⟩ := (sameBut_addToken hadd).followedBy later
  refine ⟨_, ofTokens_eq_ok.2 ⟨_, hrest, rfl⟩, ?_, hchoices, hsince, hday⟩
  intro p hp
  rw [part_withFreeText, hpart p hp]
  exact (part_withFreeText _ _ p).symm

/-- The filter of tokens after others, field by field: terms and choices pile up, of the other
    values the new ones are added, and the later dates count. A token that is left out changes its
    own field only, one that says again what was said changes nothing, and a hashtag is a tag. -/
theorem ofTokens_append (clock : Clock) (lexicon : Lexicon) :
    (∀ a b f g, Filter.ofTokens clock lexicon a = .ok f → Filter.ofTokens clock lexicon b = .ok g →
      ∃ h, Filter.ofTokens clock lexicon (a ++ b) = .ok h ∧
        h.terms = f.terms ++ g.terms ∧ h.choices = f.choices ++ g.choices ∧
        (∀ p, p ≠ .terms → h.part p = f.part p ++ (g.part p).filter (· ∉ f.part p)) ∧
        h.since = g.since.or f.since ∧ h.day = g.day.or f.day ∧ h.freeText = Filter.joined h.terms h.phrases) ∧
    (∀ a b t h, Filter.ofTokens clock lexicon (a ++ t :: b) = .ok h →
      ∃ h', Filter.ofTokens clock lexicon (a ++ b) = .ok h' ∧ h.SameBut t.kind h') ∧
    (∀ a b t u p, u ∈ a → u.kind.part? = some p → t.kind.part? = some p → t.values = u.values → p ≠ .terms →
      Filter.ofTokens clock lexicon (a ++ t :: b) = Filter.ofTokens clock lexicon (a ++ b)) ∧
    ∀ ts, Filter.ofTokens clock lexicon (ts.map Token.asTag) = Filter.ofTokens clock lexicon ts := by
  refine ⟨?_, ?_, ?_, ?_⟩
  · intro a b f g hf hg
    obtain ⟨f₀, hf₀, rfl⟩ := ofTokens_eq_ok.1 hf
    obtain ⟨g₀, hg₀, rfl⟩ := ofTokens_eq_ok.1 hg
    have hfold : (a ++ b).foldlM (Filter.addToken clock lexicon) {} = .ok (f₀.followedBy g₀) := by
      rw [List.foldlM_append, hf₀, ok_bind, foldlM_addToken_eq, hg₀]
      rfl
    refine ⟨_, ofTokens_eq_ok.2 ⟨_, hfold, rfl⟩, rfl, rfl, ?_, rfl, rfl, rfl⟩
    intro p hp
    cases p <;> first | rfl | exact absurd rfl hp
  · intro a b t h hall
    exact ofTokens_without hall
  · intro a b t u p hu hup htp hvalues hp
    exact ofTokens_congr (foldlM_addToken_again hu hup htp hvalues hp)
  · intro ts
    apply ofTokens_congr
    rw [List.foldlM_map]
    simp only [addToken_asTag]

/-- Tokens that share a tag and a type, and each ask for a time. The tag's own token can be left
    out, and the tag can be named once more. -/
theorem ofTokens_append_sale :
    let clock : Clock := ⟨.universal 0, .utc⟩
    let tag : Token := ⟨.hashtag, ["sale"], 0, 5⟩
    let dated : List Token := [⟨.type, ["tweet"], 6, 16⟩, ⟨.date, ["today"], 17, 27⟩, ⟨.term, ["red"], 28, 31⟩]
    let later : List Token := [⟨.tag, ["sale"], 0, 8⟩, ⟨.tag, ["new"], 9, 16⟩, ⟨.type, ["posts"], 17, 27⟩,
      ⟨.date, ["last  week"], 28, 43⟩, ⟨.term, ["red"], 44, 47⟩]
    let f : Filter := { tags := ["sale"], types := ["tweet"], since := some "today", terms := ["red"], freeText := "red" }
    let g : Filter := { tags := ["sale", "new"], types := ["tweet", "reddit"], since := some "last week",
                        terms := ["red"], freeText := "red" }
    Filter.ofTokens clock .builtin (tag :: dated) = .ok f ∧ Filter.ofTokens clock .builtin later = .ok g ∧
      (∃ h, Filter.ofTokens clock .builtin (tag :: dated ++ later) = .ok h ∧ h.terms = ["red", "red"] ∧
        h.tags = ["sale", "new"] ∧ h.types = ["tweet", "reddit"] ∧ h.since = some "last week" ∧
        h.freeText = "red red") ∧
      (∃ h', Filter.ofTokens clock .builtin dated = .ok h' ∧ h'.types = ["tweet"] ∧ h'.since = some "today") ∧
      Filter.ofTokens clock .builtin (tag :: dated ++ ⟨.tag, ["sale"], 32, 40⟩ :: later) =
        Filter.ofTokens clock .builtin (tag :: dated ++ later) := by
  intro clock tag dated later f g
  have hf : Filter.ofTokens clock .builtin (tag :: dated) = .ok f := by decide +kernel
  have hg : Filter.ofTokens clock .builtin later = .ok g := by decide +kernel
  obtain ⟨happend, hwithout, hagain, -⟩ := ofTokens_append clock .builtin
  obtain ⟨h, hh, hterms, -, hparts, hsince, -, hfree⟩ := happend _ _ f g hf hg
  obtain ⟨h', hh', hbut⟩ := hwithout [] dated tag f hf
  have htags : h.tags = ["sale", "new"] := hparts .tags (by decide)
  have htypes : h.types = ["tweet", "reddit"] := hparts .types (by decide)
  have hphrases : h.phrases = [] := hparts .phrases (by decide)
  refine ⟨hf, hg, ⟨h, hh, hterms, htags, htypes, hsince, ?_⟩, ⟨h', hh', ?_, ?_⟩, ?_⟩
  · rw [hfree, hterms, hphrases]
    decide
  · exact (hbut.part .types (by decide)).symm
  · exact (hbut.since (by decide)).symm
  · exact hagain _ _ _ tag .tags List.mem_cons_self rfl rfl rfl (by decide)

end Lists

end SearchBox.Query

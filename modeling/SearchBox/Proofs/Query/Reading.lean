import SearchBox.Proofs.Query.Wordwise

/-!
  SearchBox.Proofs.Query.Reading — what a query says, read word by word. `readWord` reads one
  word without looking at any other: a field, a hashtag with what is left of the word after it,
  an exclusion, or a left-over word. A text without quotes and without `||`, in which no date
  can reach over white space, has exactly the tokens of its words, by kind and then in the order
  of the text (`tokenize_eq_readWords`): blanking what one rule takes never makes a word for a
  later rule.
-/

namespace SearchBox.Query

open SearchBox.Text

/-! ## Reading a word -/

/-- The kinds of fields with their keys, in the order they are looked for. -/
def fieldKinds : List (TokenKind × String) :=
  [(.object, "object"), (.text, "text"), (.type, "type"), (.format, "format"), (.date, "date"),
   (.site, "site"), (.tag, "tag")]

/-- What follows the colon of a field, at least one character. -/
def fieldValue? (key : String) (word : List Char) : Option (List Char) :=
  match dropCaseless? key.toList word with
  | some (':' :: c :: value) => some (c :: value)
  | _ => none

/-- The first field of a list that a word is, with its value. -/
def fieldOf? : List (TokenKind × String) → List Char → Option (TokenKind × List Char)
  | [], _ => none
  | (kind, key) :: kinds, word =>
    match fieldValue? key word with
    | some value => some (kind, value)
    | none => fieldOf? kinds word

def isNameChar (c : Char) : Bool :=
  isWordChar c || c = '-'

/-- Left-over operators, a lone hash sign, and field keys without a value. -/
def saysNothing (word : List Char) : Bool :=
  word.all (fun c => c = '-' || c = '|') || word = ['#'] ||
    fieldKinds.any fun (_, key) => dropCaseless? key.toList word = some [':']

def readLeftover (place : Nat) (word : List Char) : List Token :=
  if saysNothing word then [] else [⟨.term, [String.ofList (lower word)], place, place + word.length⟩]

/-- The tokens of a word that is no field: a hashtag and what is left of the word, an exclusion,
    or a term. -/
def readMark (place : Nat) : List Char → List Token
  | '#' :: c :: rest =>
    if isWordChar c then
      let name := c :: rest.takeWhile isNameChar
      ⟨.hashtag, [String.ofList (lower name)], place, place + (name.length + 1)⟩ ::
        readLeftover (place + (name.length + 1)) (rest.dropWhile isNameChar)
    else readLeftover place ('#' :: c :: rest)
  | '-' :: c :: rest =>
    if c = '-' then readLeftover place ('-' :: c :: rest)
    else [⟨.excluded, [String.ofList (lower (c :: rest))], place, place + (rest.length + 2)⟩]
  | word => readLeftover place word

def readWord (place : Nat) (word : List Char) : List Token :=
  match fieldOf? fieldKinds word with
  | some (kind, value) => [⟨kind, [String.ofList (lower value)], place, place + word.length⟩]
  | none => readMark place word

def readWords (s : List Char) : List Token :=
  (placedWords 0 [] s).flatMap fun (word, place) => readWord place word

/-! ## Tokens elsewhere -/

def Token.moved (n : Nat) (t : Token) : Token :=
  { t with start := n + t.start, stop := n + t.stop }

def ofKind (k : TokenKind) (ts : List Token) : List Token :=
  ts.filter (·.kind = k)

@[simp] theorem ofKind_nil (k : TokenKind) : ofKind k [] = [] := rfl

@[simp] theorem ofKind_append (k : TokenKind) (ts us : List Token) :
    ofKind k (ts ++ us) = ofKind k ts ++ ofKind k us :=
  List.filter_append ..

@[simp] theorem ofKind_moved (k : TokenKind) (n : Nat) (ts : List Token) :
    ofKind k (ts.map (Token.moved n)) = (ofKind k ts).map (Token.moved n) := by
  rw [ofKind, ofKind, List.filter_map]
  rfl

theorem ofKind_eq_self {k : TokenKind} {ts : List Token} (h : ∀ t ∈ ts, t.kind = k) : ofKind k ts = ts :=
  List.filter_eq_self.2 fun t ht => by simpa using h t ht

theorem ofKind_eq_nil {k : TokenKind} {ts : List Token} (h : ∀ t ∈ ts, t.kind ≠ k) : ofKind k ts = [] :=
  List.filter_eq_nil_iff.2 fun t ht => by simpa using h t ht

theorem sweep_moved (kind : TokenKind) (rule : Rule) (n p taken : Nat) (ws : Bool) (s : List Char) :
    sweep kind rule (n + p) taken ws s =
      ((sweep kind rule p taken ws s).1.map (Token.moved n), (sweep kind rule p taken ws s).2) := by
  induction s generalizing p taken ws with
  | nil => rfl
  | cons c s ih =>
    cases taken with
    | succ taken => rw [sweep, sweep, Nat.add_assoc, ih]
    | zero =>
      rw [sweep, sweep]
      cases rule ws (c :: s) with
      | none =>
        simp only
        rw [Nat.add_assoc, ih]
      | some f =>
        simp only
        rw [Nat.add_assoc n p 1, Nat.add_assoc n p f.length, ih]
        rfl

theorem placedWords_moved (n p : Nat) (s : List Char) :
    placedWords (n + p) [] s = (placedWords p [] s).map fun (w, q) => (w, n + q) := by
  induction s using text_induction generalizing p with
  | nil => rfl
  | blank c s hc ih => rw [placedWords_of_isBlank hc, placedWords_of_isBlank hc, Nat.add_assoc, ih]
  | word w rest hw hrest ih =>
    rw [placedWords_of_isSolid hw hrest, placedWords_of_isSolid hw hrest, Nat.add_assoc, ih, List.map_cons]

theorem termOf?_moved (w : List Char) (n p : Nat) : termOf? w (n + p) = (termOf? w p).map (Token.moved n) := by
  simp only [termOf?]
  split
  · rfl
  · rw [Nat.add_assoc]
    rfl

theorem readLeftover_moved (n p : Nat) (w : List Char) :
    readLeftover (n + p) w = (readLeftover p w).map (Token.moved n) := by
  unfold readLeftover
  split
  · rfl
  · rw [Nat.add_assoc]
    rfl

theorem readMark_moved (n p : Nat) (w : List Char) : readMark (n + p) w = (readMark p w).map (Token.moved n) := by
  unfold readMark
  split
  · split
    · simp only [Nat.add_assoc, readLeftover_moved]
      rfl
    · exact readLeftover_moved n p _
  · split
    · exact readLeftover_moved n p _
    · rw [Nat.add_assoc]
      rfl
  · exact readLeftover_moved n p _

theorem readWord_moved (n p : Nat) (w : List Char) : readWord (n + p) w = (readWord p w).map (Token.moved n) := by
  unfold readWord
  split
  · rw [Nat.add_assoc]
    rfl
  · exact readMark_moved n p w

theorem readWords_cons_of_isBlank {c : Char} (hc : isBlank c = true) (s : List Char) :
    readWords (c :: s) = (readWords s).map (Token.moved 1) := by
  rw [readWords, placedWords_of_isBlank hc, Nat.add_comm, placedWords_moved, List.flatMap_map, readWords,
    List.map_flatMap]
  exact List.flatMap_congr fun e _ => readWord_moved 1 e.2 e.1

theorem readWords_append {w rest : List Char} (hw : IsSolid w) (hrest : StartsBlank rest) :
    readWords (w ++ rest) = readWord 0 w ++ (readWords rest).map (Token.moved w.length) := by
  rw [readWords, placedWords_of_isSolid hw hrest, List.flatMap_cons, Nat.add_comm, placedWords_moved,
    List.flatMap_map, readWords, List.map_flatMap]
  congr 1
  exact List.flatMap_congr fun e _ => readWord_moved w.length e.2 e.1

/-! ## Sweeps kind by kind -/

section Sweeps

variable {rs : List (TokenKind × Rule)}

theorem ofKind_sweepAll_eq_nil {k : TokenKind} (hk : k ∉ rs.map (·.1)) (s : List Char) :
    ofKind k (sweepAll rs s).1 = [] := by
  refine ofKind_eq_nil fun t ht hkind => ?_
  obtain ⟨r, hr, hkr⟩ := kind_of_mem_sweepAll ht
  exact hk (List.mem_map.2 ⟨r, hr, hkr.symm.trans hkind⟩)

/-- Rules of kinds of their own find their tokens kind by kind, in their order. -/
theorem sweepAll_eq_flatMap (hnodup : (rs.map (·.1)).Nodup) (s : List Char) :
    (sweepAll rs s).1 = (rs.map (·.1)).flatMap fun k => ofKind k (sweepAll rs s).1 := by
  induction rs generalizing s with
  | nil => rfl
  | cons r rs ih =>
    obtain ⟨kind, rule⟩ := r
    obtain ⟨hkind, hnodup⟩ := List.nodup_cons.1 hnodup
    have hfirst : ofKind kind (sweep kind rule 0 0 true s).1 = (sweep kind rule 0 0 true s).1 :=
      ofKind_eq_self fun t ht => kind_of_mem_sweep ht
    have hlater : ∀ k ∈ rs.map (·.1), ofKind k (sweep kind rule 0 0 true s).1 = [] := by
      intro k hk
      refine ofKind_eq_nil fun t ht hkt => hkind ?_
      rwa [← hkt, kind_of_mem_sweep ht] at hk
    simp only [sweepAll_cons, List.map_cons, List.flatMap_cons, ofKind_append]
    rw [hfirst, ofKind_sweepAll_eq_nil hkind, List.append_nil]
    congr 1
    rw [ih hnodup]
    refine List.flatMap_congr fun k hk => ?_
    rw [hlater k hk, List.nil_append, ← ih hnodup]

theorem ofKind_sweepAll_append (hrs : ∀ r ∈ rs, r.2.IsLocal) (hnodup : (rs.map (·.1)).Nodup) (k : TokenKind)
    (a : List Char) {rest : List Char} (hrest : StartsBlank rest) :
    ofKind k (sweepAll rs (a ++ rest)).1 =
      ofKind k (sweepAll rs a).1 ++ (ofKind k (sweepAll rs rest).1).map (Token.moved a.length) := by
  induction rs generalizing a rest with
  | nil => rfl
  | cons r rs ih =>
    obtain ⟨kind, rule⟩ := r
    obtain ⟨hr, hrs⟩ := List.forall_mem_cons.1 hrs
    obtain ⟨hkind, hnodup⟩ := List.nodup_cons.1 hnodup
    have hblank : StartsBlank (sweep kind rule 0 0 true rest).2 := by
      rw [sweep_eq_blanked hr.takes]
      exact startsBlank_blanked hrest _
    have hsweep : sweep kind rule 0 0 true (a ++ rest) =
        ((sweep kind rule 0 0 true a).1 ++ (sweep kind rule 0 0 true rest).1.map (Token.moved a.length),
          (sweep kind rule 0 0 true a).2 ++ (sweep kind rule 0 0 true rest).2) := by
      rw [sweep_append hr 0 0 true (Nat.zero_le _) hrest, Nat.add_comm 0, sweep_moved]
    have hlen := length_sweep kind rule 0 0 true a
    simp only [sweepAll_cons, hsweep, ofKind_append, ofKind_moved]
    by_cases hk : k = kind
    · subst hk
      simp only [ofKind_sweepAll_eq_nil hkind, List.append_nil]
    · have hnone : ∀ u, ofKind k (sweep kind rule 0 0 true u).1 = [] := fun u =>
        ofKind_eq_nil fun t ht hkt => hk (hkt.symm.trans (kind_of_mem_sweep ht))
      rw [hnone, hnone, ih hrs hnodup _ hblank, hlen]
      rfl

theorem sweepAll_isBlank_cons (hrs : ∀ r ∈ rs, r.2.IsLocal) {c : Char} (hc : isBlank c = true) (s : List Char) :
    sweepAll rs (c :: s) = ((sweepAll rs s).1.map (Token.moved 1), c :: (sweepAll rs s).2) := by
  induction rs generalizing s with
  | nil => rfl
  | cons r rs ih =>
    obtain ⟨kind, rule⟩ := r
    obtain ⟨hr, hrs⟩ := List.forall_mem_cons.1 hrs
    rw [sweepAll_cons, sweep_cons_of_isBlank hr.takes 0 hc, Nat.add_comm, sweep_moved, ih hrs, sweepAll_cons,
      List.map_append]

theorem sweepAll_gap_append (hrs : ∀ r ∈ rs, r.2.IsLocal) {gap : List Char} (hgap : isBlankText gap = true)
    (s : List Char) :
    sweepAll rs (gap ++ s) = ((sweepAll rs s).1.map (Token.moved gap.length), gap ++ (sweepAll rs s).2) := by
  induction gap with
  | nil =>
    have hzero : Token.moved 0 = id := funext fun t => by simp [Token.moved]
    rw [List.length_nil, hzero, List.map_id]
    rfl
  | cons c gap ih =>
    obtain ⟨hc, hgap⟩ := List.forall_mem_cons.1 (isBlankText_iff.1 hgap)
    have hmoved : ∀ t, Token.moved 1 (Token.moved gap.length t) = Token.moved (c :: gap).length t := fun t => by
      simp only [Token.moved, List.length_cons]
      congr 1 <;> omega
    rw [List.cons_append, sweepAll_isBlank_cons hrs hc, ih (isBlankText_iff.2 hgap), List.map_map]
    exact Prod.ext (List.map_congr_left fun t _ => hmoved t) rfl

end Sweeps

/-! ## One word -/

theorem blanked_singleton (kind : TokenKind) (values : List String) (n : Nat) {w : List Char} (hn : n ≤ w.length) :
    blanked [⟨kind, values, 0, n⟩] w = List.replicate n ' ' ++ w.drop n := by
  refine List.ext_getElem? fun i => ?_
  rw [getElem?_blanked, List.getElem?_append, List.length_replicate]
  by_cases hi : i < n
  · rw [if_pos hi, List.getElem?_eq_getElem (by omega), List.getElem?_replicate, if_pos hi]
    simp [hi]
  · rw [if_neg hi, List.getElem?_drop, show n + (i - n) = i by omega]
    simp [hi]

/-- Of a word, a rule takes what it finds at its front. -/
theorem sweep_of_isSolid {kind : TokenKind} {rule : Rule} (hr : rule.IsLocal) {w : List Char} (hw : IsSolid w) :
    sweep kind rule 0 0 true w =
      match rule true w with
      | none => ([], w)
      | some f =>
        ([⟨kind, f.values.map fun v => String.ofList (lower v), 0, f.length⟩],
          List.replicate f.length ' ' ++ w.drop f.length) := by
  cases hf : rule true w with
  | none =>
    have hnil : (sweep kind rule 0 0 true w).1 = [] := by
      rw [List.eq_nil_iff_forall_not_mem]
      intro t ht
      obtain ⟨f, hf', -⟩ := eq_of_mem_sweep_of_isSolid hr hw ht
      rw [hf] at hf'
      cases hf'
    refine Prod.ext hnil ?_
    rw [sweep_eq_blanked hr.takes, hnil, blanked_nil]
  | some f =>
    obtain ⟨m, later, hm, hlen, -⟩ := hr.takes true w f hf
    have hle : f.length ≤ w.length := by rw [hm, List.length_append]; omega
    have htokens : (sweep kind rule 0 0 true w).1 =
        [⟨kind, f.values.map fun v => String.ofList (lower v), 0, f.length⟩] := by
      cases w with
      | nil => exact absurd rfl hw.1
      | cons c rest =>
        -- A further token would start after the front of the word.
        have hnone : (sweep kind rule (0 + 1) (f.length - 1) (isBlank c) rest).1 = [] := by
          rw [List.eq_nil_iff_forall_not_mem]
          intro t ht
          have hmem : t ∈ (sweep kind rule 0 0 true (c :: rest)).1 := by
            rw [sweep, hf]
            exact List.mem_cons_of_mem _ ht
          obtain ⟨f', -, rfl⟩ := eq_of_mem_sweep_of_isSolid hr hw hmem
          have : 0 + 1 + (f.length - 1) ≤ 0 := le_start_of_mem_sweep ht
          omega
        rw [sweep, hf]
        simp only [hnone, Nat.zero_add]
    refine Prod.ext htokens ?_
    rw [sweep_eq_blanked hr.takes, htokens, blanked_singleton _ _ _ hle]

theorem fieldRule_of_isSolid (key : String) {w : List Char} (hw : IsSolid w) :
    fieldRule key wordValue? true w = (fieldValue? key w).map fun v => ⟨[v], w.length⟩ := by
  rw [fieldRule, if_pos rfl, fieldValue?]
  rcases hdrop : dropCaseless? key.toList w with _ | _ | ⟨c, more⟩
  · rfl
  · rfl
  · obtain ⟨k, hk, hkey⟩ := dropCaseless?_eq_some_iff.1 hdrop
    have hmore : more.takeWhile (!isBlank ·) = more :=
      List.takeWhile_eq_self_iff.2 fun d hd => by simp [hw.2 d (by simp [hk, hd])]
    by_cases hc : c = ':'
    · subst hc
      cases more with
      | nil => rfl
      | cons d value =>
        have hlen : w.length = key.toList.length + 1 + (d :: value).length := by
          rw [hk, hkey.length_eq]
          simp only [List.length_append, List.length_cons]
          omega
        simp [wordValue?, hmore, hlen]
    · simp [hc]

def fieldRules (kinds : List (TokenKind × String)) : List (TokenKind × Rule) :=
  kinds.map fun (kind, key) => (kind, fieldRule key wordValue?)

theorem fieldRules_isLocal {kinds : List (TokenKind × String)} (hkeys : ∀ e ∈ kinds, IsSolid e.2.toList) :
    ∀ r ∈ fieldRules kinds, r.2.IsLocal := by
  intro r hr
  obtain ⟨e, he, rfl⟩ := List.mem_map.1 hr
  exact fieldRule_isLocal (hkeys e he)

/-- A word is one field as a whole or none. -/
theorem sweepAll_fieldRules {kinds : List (TokenKind × String)} (hkeys : ∀ e ∈ kinds, IsSolid e.2.toList)
    {w : List Char} (hw : IsSolid w) :
    sweepAll (fieldRules kinds) w =
      match fieldOf? kinds w with
      | some (kind, value) =>
        ([⟨kind, [String.ofList (lower value)], 0, w.length⟩], List.replicate w.length ' ')
      | none => ([], w) := by
  induction kinds with
  | nil => rfl
  | cons e kinds ih =>
    obtain ⟨kind, key⟩ := e
    obtain ⟨hkey, hkeys⟩ := List.forall_mem_cons.1 hkeys
    show sweepAll ((kind, fieldRule key wordValue?) :: fieldRules kinds) w = _
    rw [sweepAll_cons, sweep_of_isSolid (fieldRule_isLocal hkey) hw, fieldRule_of_isSolid key hw, fieldOf?]
    cases fieldValue? key w with
    | none =>
      simp only [Option.map_none, List.nil_append]
      rw [ih hkeys]
    | some value =>
      simp only [Option.map_some, List.drop_length, List.append_nil, List.map_cons, List.map_nil]
      rw [sweepAll_of_isBlankText (fun r hr => (fieldRules_isLocal hkeys r hr).takes) (isBlankText_replicate _)]
      rfl

/-- A word without quotes that no rule has taken anything of. -/
theorem termsOf_of_isSolid {w : List Char} (hw : IsSolid w) (hq : '"' ∉ w) : termsOf w = readLeftover 0 w := by
  have hbare := filter_isQuote_of_not_mem hq
  have hempty : w.isEmpty = false := by simpa using hw.1
  have hdebris : isDebris w = saysNothing w := by
    rw [isDebris, saysNothing, hempty]
    rfl
  have hplaced : placedWords 0 [] w = [(w, 0)] := by
    have := placedWords_of_isSolid hw startsBlank_nil 0
    rwa [List.append_nil] at this
  rw [termsOf, hplaced, readLeftover]
  simp only [List.filterMap_cons, List.filterMap_nil, termOf?, hbare, hempty, hdebris, Bool.false_or]
  cases saysNothing w <;> rfl

theorem termsOf_gap_append {gap : List Char} (hgap : isBlankText gap = true) (s : List Char) :
    termsOf (gap ++ s) = (termsOf s).map (Token.moved gap.length) := by
  have hplaced : ∀ place, placedWords place [] (gap ++ s) = placedWords (gap.length + place) [] s := by
    induction gap with
    | nil => exact fun place => by rw [List.length_nil, Nat.zero_add, List.nil_append]
    | cons c gap ih =>
      obtain ⟨hc, hgap⟩ := List.forall_mem_cons.1 (isBlankText_iff.1 hgap)
      intro place
      rw [List.cons_append, placedWords_of_isBlank hc, ih (isBlankText_iff.2 hgap), List.length_cons,
        show gap.length + (place + 1) = gap.length + 1 + place by omega]
  rw [termsOf, hplaced, placedWords_moved, List.filterMap_map, termsOf, List.map_filterMap]
  exact List.filterMap_congr fun e _ => termOf?_moved e.1 gap.length e.2

def markRules : List (TokenKind × Rule) :=
  [(.hashtag, hashtagRule), (.excluded, exclusionRule)]

/-- The rules of a text in which each word is read for itself. -/
def readingRules : List (TokenKind × Rule) :=
  fieldRules fieldKinds ++ markRules

theorem fieldKinds_isSolid : ∀ e ∈ fieldKinds, IsSolid e.2.toList := by
  decide

theorem markRules_isLocal : ∀ r ∈ markRules, r.2.IsLocal := by
  intro r hr
  simp only [markRules, List.mem_cons, List.not_mem_nil, or_false] at hr
  rcases hr with rfl | rfl
  · exact hashtagRule_isLocal
  · exact exclusionRule_isLocal

theorem readingRules_isLocal : ∀ r ∈ readingRules, r.2.IsLocal := by
  intro r hr
  rcases List.mem_append.1 hr with hr | hr
  · exact fieldRules_isLocal fieldKinds_isSolid r hr
  · exact markRules_isLocal r hr

/-- The tokens that rules find, and the terms that are left. -/
def tokensBy (rs : List (TokenKind × Rule)) (s : List Char) : List Token :=
  (sweepAll rs s).1 ++ termsOf (sweepAll rs s).2

theorem tokensBy_of_isBlankText {rs : List (TokenKind × Rule)} (hrs : ∀ r ∈ rs, r.2.IsLocal) {gap : List Char}
    (hgap : isBlankText gap = true) : tokensBy rs gap = [] := by
  have hterms := termsOf_gap_append hgap []
  rw [List.append_nil] at hterms
  rw [tokensBy, sweepAll_of_isBlankText (fun r hr => (hrs r hr).takes) hgap, hterms]
  rfl

/-- What is left of a word after a hashtag is a left-over word, whatever it is. -/
theorem tokensBy_exclusion {gap more : List Char} (hgap : isBlankText gap = true)
    (hvis : ∀ c ∈ more, isBlank c = false) (hq : '"' ∉ more) (hhead : ∀ c ∈ more.head?, c ≠ '-') :
    tokensBy [(.excluded, exclusionRule)] (gap ++ more) = readLeftover gap.length more := by
  have hlocal : ∀ r ∈ [(TokenKind.excluded, exclusionRule)], r.2.IsLocal := by
    intro r hr
    rw [List.mem_singleton.1 hr]
    exact exclusionRule_isLocal
  cases more with
  | nil =>
    rw [List.append_nil, tokensBy_of_isBlankText hlocal hgap]
    rfl
  | cons c more =>
    have hsolid : IsSolid (c :: more) := ⟨List.cons_ne_nil _ _, hvis⟩
    have hnone : exclusionRule true (c :: more) = none := by
      unfold exclusionRule
      split
      · rename_i heq
        cases heq
        exact absurd rfl (hhead '-' rfl)
      · rfl
    have hsweep : sweepAll [(TokenKind.excluded, exclusionRule)] (c :: more) = ([], c :: more) := by
      rw [sweepAll_cons, sweep_of_isSolid exclusionRule_isLocal hsolid, hnone]
      rfl
    rw [tokensBy, sweepAll_gap_append hlocal hgap, hsweep, List.map_nil, List.nil_append, termsOf_gap_append hgap,
      termsOf_of_isSolid hsolid hq, ← readLeftover_moved, Nat.add_zero]

section Marks

variable {w : List Char} {c : Char} {rest : List Char}

/-- Without a hashtag the rule for exclusions still sees the whole word. -/
theorem tokensBy_plain (hw : IsSolid w) (hq : '"' ∉ w) (hhash : hashtagRule true w = none)
    (hexcl : exclusionRule true w = none) : tokensBy markRules w = readLeftover 0 w := by
  rw [tokensBy, markRules, sweepAll_cons, sweep_of_isSolid hashtagRule_isLocal hw, hhash, sweepAll_cons,
    sweep_of_isSolid exclusionRule_isLocal hw, hexcl]
  exact termsOf_of_isSolid hw hq

theorem tokensBy_hashtag (hw : IsSolid ('#' :: c :: rest)) (hq : '"' ∉ '#' :: c :: rest)
    (hc : isWordChar c = true) : tokensBy markRules ('#' :: c :: rest) = readMark 0 ('#' :: c :: rest) := by
  have hrule : hashtagRule true ('#' :: c :: rest) =
      some ⟨[c :: rest.takeWhile isNameChar], (rest.takeWhile isNameChar).length + 2⟩ := by
    rw [hashtagRule, if_pos hc]
    rfl
  have hdrop : ('#' :: c :: rest).drop ((rest.takeWhile isNameChar).length + 2) = rest.dropWhile isNameChar :=
    drop_length_takeWhile isNameChar rest
  have hsub : ∀ d ∈ rest.dropWhile isNameChar, d ∈ '#' :: c :: rest := fun d hd =>
    List.mem_cons_of_mem _ (List.mem_cons_of_mem _ ((List.dropWhile_suffix _).subset hd))
  have hdash : ∀ d ∈ (rest.dropWhile isNameChar).head?, d ≠ '-' := by
    intro d hd hdash
    have := List.head?_dropWhile_not isNameChar rest
    rw [Option.mem_def.1 hd, hdash] at this
    simp [isNameChar] at this
  have hmore := tokensBy_exclusion (isBlankText_replicate ((rest.takeWhile isNameChar).length + 2))
    (fun d hd => hw.2 d (hsub d hd)) (fun h => hq (hsub _ h)) hdash
  rw [List.length_replicate] at hmore
  rw [tokensBy, markRules, sweepAll_cons, sweep_of_isSolid hashtagRule_isLocal hw, hrule, readMark, if_pos hc]
  simp only [hdrop, List.map_cons, List.map_nil, List.cons_append, List.nil_append, List.length_cons, Nat.zero_add]
  exact congrArg _ hmore

theorem tokensBy_dash (hw : IsSolid ('-' :: c :: rest)) (hc : c ≠ '-') :
    tokensBy markRules ('-' :: c :: rest) = readMark 0 ('-' :: c :: rest) := by
  have hvisible : isBlank c = false := hw.2 c (by simp)
  have hrest : rest.takeWhile (!isBlank ·) = rest :=
    List.takeWhile_eq_self_iff.2 fun d hd => by simp [hw.2 d (by simp [hd])]
  have hrule : exclusionRule true ('-' :: c :: rest) = some ⟨[c :: rest], rest.length + 2⟩ := by
    simp [exclusionRule, hvisible, hc, hrest]
  have hdrop : ('-' :: c :: rest).drop (rest.length + 2) = [] := by simp
  have hterms : tokensBy [] (List.replicate (rest.length + 2) ' ') = [] :=
    tokensBy_of_isBlankText (fun r hr => by cases hr) (isBlankText_replicate _)
  rw [tokensBy, markRules, sweepAll_cons, sweep_of_isSolid hashtagRule_isLocal hw, readMark, if_neg hc]
  show [] ++ (sweepAll [(.excluded, exclusionRule)] ('-' :: c :: rest)).1 ++
    termsOf (sweepAll [(.excluded, exclusionRule)] ('-' :: c :: rest)).2 = _
  rw [sweepAll_cons, sweep_of_isSolid exclusionRule_isLocal hw, hrule]
  simp only [hdrop, List.append_nil]
  rw [show termsOf _ = [] from hterms]
  simp

theorem tokensBy_markRules (hw : IsSolid w) (hq : '"' ∉ w) : tokensBy markRules w = readMark 0 w := by
  unfold readMark
  split
  · rename_i c rest
    split
    · rename_i hc
      have hhashtag := tokensBy_hashtag hw hq hc
      rwa [readMark, if_pos hc] at hhashtag
    · rename_i hc
      exact tokensBy_plain hw hq (by rw [hashtagRule, if_neg hc]) rfl
  · rename_i c rest
    split
    · rename_i hc
      refine tokensBy_plain hw hq rfl ?_
      rw [exclusionRule, hc]
      rfl
    · rename_i hc
      have hdash := tokensBy_dash hw hc
      rwa [readMark, if_neg hc] at hdash
  · rename_i hhash hexcl
    refine tokensBy_plain hw hq ?_ ?_
    · unfold hashtagRule
      split
      · exact absurd rfl (hhash _ _)
      · rfl
    · unfold exclusionRule
      split
      · exact absurd rfl (hexcl _ _)
      · rfl

end Marks

/-- The tokens of one word. -/
theorem tokensBy_of_isSolid {w : List Char} (hw : IsSolid w) (hq : '"' ∉ w) : tokensBy readingRules w = readWord 0 w := by
  rw [tokensBy, readingRules, sweepAll_append_rules, sweepAll_fieldRules fieldKinds_isSolid hw, readWord]
  cases hfield : fieldOf? fieldKinds w with
  | none => exact tokensBy_markRules hw hq
  | some e =>
    obtain ⟨kind, value⟩ := e
    have hrest := tokensBy_of_isBlankText markRules_isLocal (isBlankText_replicate w.length)
    simp only [List.append_assoc, Nat.zero_add]
    rw [show _ ++ termsOf _ = [] from hrest]
    rfl

/-! ## All words -/

theorem termsOf_append (a : List Char) {rest : List Char} (hrest : StartsBlank rest) :
    termsOf (a ++ rest) = termsOf a ++ (termsOf rest).map (Token.moved a.length) := by
  have hplaced : ∀ place, placedWords place [] (a ++ rest) =
      placedWords place [] a ++ placedWords (a.length + place) [] rest := by
    induction a using text_induction with
    | nil => exact fun place => by rw [List.length_nil, Nat.zero_add]; rfl
    | blank c a hc ih =>
      intro place
      rw [List.cons_append, placedWords_of_isBlank hc, placedWords_of_isBlank hc, ih, List.length_cons,
        show a.length + (place + 1) = a.length + 1 + place by omega]
    | word w a hw ha ih =>
      intro place
      rw [List.append_assoc, placedWords_of_isSolid hw (ha.append hrest), placedWords_of_isSolid hw ha, ih,
        List.length_append, List.cons_append, show a.length + (place + w.length) = w.length + a.length + place by omega]
  rw [termsOf, hplaced, List.filterMap_append, placedWords_moved, List.filterMap_map, termsOf, termsOf,
    List.map_filterMap]
  congr 1
  exact List.filterMap_congr fun e _ => termOf?_moved e.1 a.length e.2

theorem kind_of_mem_termsOf {s : List Char} {t : Token} (h : t ∈ termsOf s) : t.kind = .term := by
  obtain ⟨w, hterm, -⟩ := exists_of_mem_termsOf h
  exact (termOf?_eq_some hterm).1

section TokensBy

variable {rs : List (TokenKind × Rule)}

theorem tokensBy_cons_of_isBlank (hrs : ∀ r ∈ rs, r.2.IsLocal) {c : Char} (hc : isBlank c = true) (s : List Char) :
    tokensBy rs (c :: s) = (tokensBy rs s).map (Token.moved 1) := by
  have hgap : isBlankText [c] = true := by simpa [isBlankText] using hc
  have hterms := termsOf_gap_append hgap (sweepAll rs s).2
  rw [tokensBy, sweepAll_isBlank_cons hrs hc, tokensBy, List.map_append]
  exact congrArg _ hterms

/-- Tokens of one kind are those of either side of white space. -/
theorem ofKind_tokensBy_append (hrs : ∀ r ∈ rs, r.2.IsLocal) (hnodup : (rs.map (·.1)).Nodup)
    (hterm : TokenKind.term ∉ rs.map (·.1)) (k : TokenKind) (a : List Char) {rest : List Char}
    (hrest : StartsBlank rest) :
    ofKind k (tokensBy rs (a ++ rest)) =
      ofKind k (tokensBy rs a) ++ (ofKind k (tokensBy rs rest)).map (Token.moved a.length) := by
  have hblank : StartsBlank (sweepAll rs rest).2 := by
    rw [sweepAll_blanks fun r hr => (hrs r hr).takes]
    exact startsBlank_blanked hrest _
  simp only [tokensBy, ofKind_append, ofKind_sweepAll_append hrs hnodup k a hrest, (sweepAll_append hrs a hrest).2,
    termsOf_append _ hblank, ofKind_moved, length_sweepAll, List.map_append]
  by_cases hk : k = .term
  · subst hk
    simp [ofKind_sweepAll_eq_nil hterm]
  · have hnone : ∀ u, ofKind k (termsOf u) = [] := fun u =>
      ofKind_eq_nil fun t ht hkt => hk (hkt.symm.trans (kind_of_mem_termsOf ht))
    simp [hnone]

/-- Tokens stand by kind, in the order of the rules, with the terms at the end. -/
theorem tokensBy_eq_flatMap (hnodup : (rs.map (·.1)).Nodup) (hterm : TokenKind.term ∉ rs.map (·.1)) (s : List Char) :
    tokensBy rs s = (rs.map Prod.fst ++ [TokenKind.term]).flatMap fun k => ofKind k (tokensBy rs s) := by
  have hrules : ∀ k ∈ rs.map (·.1), ofKind k (tokensBy rs s) = ofKind k (sweepAll rs s).1 := by
    intro k hk
    have hnone : ofKind k (termsOf (sweepAll rs s).2) = [] :=
      ofKind_eq_nil fun t ht hkt => hterm (kind_of_mem_termsOf ht ▸ hkt ▸ hk)
    rw [tokensBy, ofKind_append, hnone, List.append_nil]
  have hlast : ofKind .term (tokensBy rs s) = termsOf (sweepAll rs s).2 := by
    rw [tokensBy, ofKind_append, ofKind_sweepAll_eq_nil hterm, ofKind_eq_self fun t ht => kind_of_mem_termsOf ht]
    rfl
  rw [List.flatMap_append, List.flatMap_congr hrules, ← sweepAll_eq_flatMap hnodup, List.flatMap_singleton, hlast]
  rfl

end TokensBy

theorem ofKind_readWords {s : List Char} (hq : '"' ∉ s) (k : TokenKind) :
    ofKind k (tokensBy readingRules s) = ofKind k (readWords s) := by
  induction s using text_induction with
  | nil => rfl
  | blank c s hc ih =>
    rw [tokensBy_cons_of_isBlank readingRules_isLocal hc, readWords_cons_of_isBlank hc, ofKind_moved, ofKind_moved,
      ih fun h => hq (List.mem_cons_of_mem _ h)]
  | word w rest hw hrest ih =>
    rw [ofKind_tokensBy_append readingRules_isLocal (by decide) (by decide) k w hrest, readWords_append hw hrest,
      ofKind_append, ofKind_moved, tokensBy_of_isSolid hw fun h => hq (List.mem_append_left _ h),
      ih fun h => hq (List.mem_append_right _ h)]

/-! ## The query -/

/-- No date can reach over white space: no word for a date holds a space, or no word is a date. -/
def HasShortDates (lexicon : Lexicon) (s : List Char) : Prop :=
  (∀ e ∈ lexicon.presets, ' ' ∉ e.1.toList) ∨ ∀ w ∈ words s, dropCaseless? "date:".toList w = none

theorem spacedPresets_eq_nil {lexicon : Lexicon} (h : ∀ e ∈ lexicon.presets, ' ' ∉ e.1.toList) :
    spacedPresets lexicon = [] := by
  rw [spacedPresets, List.filter_eq_nil_iff.2, List.mergeSort_nil]
  intro k hk
  obtain ⟨e, he, rfl⟩ := List.mem_map.1 hk
  simpa using h e he

/-- The rule for dates finds values of one word only, so that all rules read word by word. -/
theorem sweepAll_of_hasShortDates {lexicon : Lexicon} {s : List Char} (hq : '"' ∉ s) (hbars : ¬ ['|', '|'] <:+: s)
    (hdates : HasShortDates lexicon s) : sweepAll (rules lexicon) s = sweepAll readingRules s := by
  have hreading : readingRules = earlyRules ++ (.date, fieldRule "date" (dateValue? [])) :: lateRules := rfl
  rw [rules_eq, hreading, sweepAll_signRules_append hq hbars]
  rcases hdates with hspaced | hnone
  · rw [spacedPresets_eq_nil hspaced]
  · have hdate : ∀ w ∈ words (sweepAll earlyRules s).2, dropCaseless? "date:".toList w = none := fun w hw =>
      hnone w (of_mem_words_sweepAll (fun _ => earlyRules_takeWords) hw).1
    rw [sweepAll_append_rules, sweepAll_append_rules, sweepAll_cons, sweepAll_cons, sweep_date _ hdate,
      sweep_date _ hdate]

/-- Without quotes, without two bars side by side and without dates of several words, a query has
    the tokens of its words, each read for itself: by kind, and in the order of the query. -/
theorem tokenize_eq_readWords (lexicon : Lexicon) (query : String) (hq : '"' ∉ query.toList)
    (hbars : ¬ "||".toList <:+: query.toList) (hdates : HasShortDates lexicon query.toList) :
    tokenize lexicon query = TokenKind.all.flatMap fun k => (readWords query.toList).filter (·.kind = k) := by
  have htokens : tokenize lexicon query = tokensBy (rules lexicon) query.toList := by
    rw [tokenize, tokensOf_eq, ← sweepAll_blanks fun r hr => (rules_take lexicon hr).1, tokensBy]
  have hsame : tokensBy (rules lexicon) query.toList = tokensBy readingRules query.toList := by
    rw [tokensBy, sweepAll_of_hasShortDates hq hbars hdates, tokensBy]
  have hkinds : (rules lexicon).map (·.1) = TokenKind.all.dropLast := rfl
  rw [htokens, tokensBy_eq_flatMap (hkinds ▸ by decide) (hkinds ▸ by decide), hsame]
  exact List.flatMap_congr fun k _ => ofKind_readWords hq k

/-- A hashtag ends in the middle of a word, what is left of the word is a term, and a bar alone is
    no choice. -/
theorem tokenize_eq_readWords_wide :
    '"' ∉ "Type:PDF #a!b -x | date:today".toList ∧ ¬ "||".toList <:+: "Type:PDF #a!b -x | date:today".toList ∧
      HasShortDates ⟨[("today", 0)], []⟩ "Type:PDF #a!b -x | date:today".toList ∧
      tokenize ⟨[("today", 0)], []⟩ "Type:PDF #a!b -x | date:today" =
        [⟨.type, ["pdf"], 0, 8⟩, ⟨.date, ["today"], 19, 29⟩, ⟨.hashtag, ["a"], 9, 11⟩, ⟨.excluded, ["x"], 14, 16⟩,
         ⟨.term, ["!b"], 11, 13⟩] := by
  have hq : '"' ∉ "Type:PDF #a!b -x | date:today".toList := by decide
  have hbars : ¬ "||".toList <:+: "Type:PDF #a!b -x | date:today".toList := by decide +kernel
  have hdates : HasShortDates ⟨[("today", 0)], []⟩ "Type:PDF #a!b -x | date:today".toList := .inl (by decide)
  refine ⟨hq, hbars, hdates, ?_⟩
  rw [tokenize_eq_readWords _ _ hq hbars hdates]
  decide +kernel

end SearchBox.Query

import SearchBox.Lexicon
import SearchBox.Query.Token
import SearchBox.Text.Blank
import SearchBox.Text.Caseless
import SearchBox.Text.Word

/-!
  SearchBox.Query.Lexer — a query cut into tokens. Rules run one after another over the whole
  query; what a rule takes is blanked before the next one runs, so that places stay those of
  the query and nothing is read twice. The order is: excluded phrases `-"red shoes"`, phrases
  `"red shoes"`, choices `cats || dogs`, the fields `object:` `text:` `type:` `format:` `date:`
  `site:` `tag:`, hashtags `#recipe`, exclusions `-blue`. Words that are left are terms, unless
  they are left-over operators or field keys without a value.

  A field, a hashtag or an exclusion starts a word. Values are lower-cased.
-/

namespace SearchBox.Query

open SearchBox.Text

/-- What a rule found at the front of a text: its values and how many characters it takes. -/
structure Found where
  values : List (List Char)
  length : Nat

/-- A rule looks at the front of a text. It is told whether a word can start there. -/
abbrev Rule := Bool → List Char → Option Found

/-! ## The rules -/

def isQuote (c : Char) : Bool :=
  c = '"'

/-- The characters between two quotes, at least one. -/
def quotedRun? : List Char → Option (List Char)
  | '"' :: rest =>
    let run := rest.takeWhile (!isQuote ·)
    if run.isEmpty || rest.length = run.length then none else some run
  | _ => none

def phraseRule : Rule := fun _ s =>
  (quotedRun? s).map fun run => ⟨[run], run.length + 2⟩

def excludedPhraseRule : Rule := fun _ s =>
  match s with
  | '-' :: rest => (quotedRun? rest).map fun run => ⟨[run], run.length + 3⟩
  | _ => none

def isChoiceChar (c : Char) : Bool :=
  !isBlank c && c ≠ '|'

/-- Two words with `||` between them, with or without white space around it. -/
def choiceRule : Rule := fun _ s =>
  let left := s.takeWhile isChoiceChar
  let gap := (s.drop left.length).takeWhile isBlank
  match left, s.drop (left.length + gap.length) with
  | _ :: _, '|' :: '|' :: rest =>
    let gapAfter := rest.takeWhile isBlank
    let right := (rest.drop gapAfter.length).takeWhile isChoiceChar
    if right.isEmpty then none
    else some ⟨[left, right], left.length + gap.length + 2 + gapAfter.length + right.length⟩
  | _, _ => none

/-- The run of characters up to white space, at least one. -/
def wordValue? (s : List Char) : Option Found :=
  let word := s.takeWhile (!isBlank ·)
  if word.isEmpty then none else some ⟨[word], word.length⟩

/-- A field key in any case, a colon and a value. -/
def fieldRule (key : String) (value? : List Char → Option Found) : Rule := fun wordStart s =>
  if wordStart then
    match dropCaseless? key.toList s with
    | some (':' :: rest) => (value? rest).map fun f => ⟨f.values, key.toList.length + 1 + f.length⟩
    | _ => none
  else none

/-- The length of words in any case with white space between each two. -/
def spacedWords? : List (List Char) → List Char → Option Nat
  | [], _ => some 0
  | [w], s => (dropCaseless? w s).map fun _ => w.length
  | w :: ws, s =>
    match dropCaseless? w s with
    | none => none
    | some rest =>
      let gap := rest.takeWhile isBlank
      if gap.isEmpty then none
      else (spacedWords? ws (rest.drop gap.length)).map (w.length + gap.length + ·)

def atWordEnd : List Char → Bool
  | [] => true
  | c :: _ => isBlank c

/-- The words of a preset as a date value, if a word ends after them. -/
def presetValue? (preset : List Char) (s : List Char) : Option Found :=
  match spacedWords? (words preset) s with
  | some n => if atWordEnd (s.drop n) then some ⟨[s.take n], n⟩ else none
  | none => none

/-- The presets of several words, the longest first. -/
def spacedPresets (lexicon : Lexicon) : List (List Char) :=
  ((lexicon.presets.map fun (k, _) => k.toList).filter (·.contains ' ')).mergeSort
    fun a b => b.length ≤ a.length

/-- A preset of several words, else a single word. -/
def dateValue? (presets : List (List Char)) (s : List Char) : Option Found :=
  match presets.findSome? (presetValue? · s) with
  | some found => some found
  | none => wordValue? s

/-- A hash sign, a word character and any word characters and hyphens. -/
def hashtagRule : Rule := fun wordStart s =>
  match wordStart, s with
  | true, '#' :: c :: rest =>
    if isWordChar c then
      let name := c :: rest.takeWhile fun d => isWordChar d || d = '-'
      some ⟨[name], name.length + 1⟩
    else none
  | _, _ => none

/-- A hyphen and a word that does not start with another one. -/
def exclusionRule : Rule := fun wordStart s =>
  match wordStart, s with
  | true, '-' :: c :: rest =>
    if isBlank c || c = '-' then none
    else
      let word := c :: rest.takeWhile (!isBlank ·)
      some ⟨[word], word.length + 1⟩
  | _, _ => none

def rules (lexicon : Lexicon) : List (TokenKind × Rule) :=
  [(.excludedPhrase, excludedPhraseRule),
   (.phrase, phraseRule),
   (.choice, choiceRule),
   (.object, fieldRule "object" wordValue?),
   (.text, fieldRule "text" wordValue?),
   (.type, fieldRule "type" wordValue?),
   (.format, fieldRule "format" wordValue?),
   (.date, fieldRule "date" (dateValue? (spacedPresets lexicon))),
   (.site, fieldRule "site" wordValue?),
   (.tag, fieldRule "tag" wordValue?),
   (.hashtag, hashtagRule),
   (.excluded, exclusionRule)]

/-! ## Sweeping a text -/

/-- One rule over a text from place `place` on. Answers the tokens and the text with their spans
    blanked. `taken` characters still belong to the last token; `wordStart` says whether a word
    can start at the front, as no visible character stands before it. -/
def sweep (kind : TokenKind) (rule : Rule) : Nat → Nat → Bool → List Char → List Token × List Char
  | _, _, _, [] => ([], [])
  | place, taken + 1, _, c :: rest =>
    let (ts, blanked) := sweep kind rule (place + 1) taken (isBlank c) rest
    (ts, ' ' :: blanked)
  | place, 0, wordStart, c :: rest =>
    match rule wordStart (c :: rest) with
    | some found =>
      let (ts, blanked) := sweep kind rule (place + 1) (found.length - 1) (isBlank c) rest
      (⟨kind, found.values.map fun v => String.ofList (lower v), place, place + found.length⟩ :: ts,
        ' ' :: blanked)
    | none =>
      let (ts, blanked) := sweep kind rule (place + 1) 0 (isBlank c) rest
      (ts, c :: blanked)

theorem length_sweep (kind : TokenKind) (rule : Rule) (place taken : Nat) (wordStart : Bool) (s : List Char) :
    (sweep kind rule place taken wordStart s).2.length = s.length := by
  fun_induction sweep kind rule place taken wordStart s <;> simp_all

def sweepAll : List (TokenKind × Rule) → List Char → List Token × List Char
  | [], s => ([], s)
  | (kind, rule) :: later, s =>
    let (ts, blanked) := sweep kind rule 0 0 true s
    let (more, left) := sweepAll later blanked
    (ts ++ more, left)

theorem length_sweepAll (rules : List (TokenKind × Rule)) (s : List Char) :
    (sweepAll rules s).2.length = s.length := by
  induction rules generalizing s with
  | nil => rfl
  | cons r later ih =>
    obtain ⟨kind, rule⟩ := r
    simp [sweepAll, ih, length_sweep]

/-! ## What is left -/

def fieldKeys : List String :=
  ["object", "text", "type", "format", "date", "site", "tag"]

/-- Words without anything to search for: left-over operators and field keys. -/
def isDebris (word : List Char) : Bool :=
  !word.isEmpty && word.all (fun c => c = '-' || c = '|') || word = ['#'] ||
    fieldKeys.any fun key => dropCaseless? key.toList word = some [':']

/-- The term that a left-over word is, without its quotes. -/
def termOf? (word : List Char) (place : Nat) : Option Token :=
  let bare := word.filter (!isQuote ·)
  if bare.isEmpty || isDebris bare then none
  else some ⟨.term, [String.ofList (lower bare)], place, place + word.length⟩

/-- The words of a text with the place of each; `word` holds the open word in reverse and
    `place` is that of the front. -/
def placedWords (place : Nat) (word : List Char) : List Char → List (List Char × Nat)
  | [] => if word.isEmpty then [] else [(word.reverse, place - word.length)]
  | c :: rest =>
    if isBlank c then
      if word.isEmpty then placedWords (place + 1) [] rest
      else (word.reverse, place - word.length) :: placedWords (place + 1) [] rest
    else placedWords (place + 1) (c :: word) rest

/-- The tokens of a text, rule by rule and then the terms. -/
def tokensOf (lexicon : Lexicon) (s : List Char) : List Token :=
  let (ts, left) := sweepAll (rules lexicon) s
  ts ++ (placedWords 0 [] left).filterMap fun (word, place) => termOf? word place

def tokenize (lexicon : Lexicon) (query : String) : List Token :=
  tokensOf lexicon query.toList

end SearchBox.Query

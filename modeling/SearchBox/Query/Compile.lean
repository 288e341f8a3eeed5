import SearchBox.Query.Filter
import SearchBox.Query.Lexer

/-!
  SearchBox.Query.Compile — the filter of a query. Tokens are folded from left to right: terms
  and choices pile up, values of the other fields are kept once in the order of their first
  occurrence, and of several dates the last one counts. Values that mean nothing, an unknown
  type or a date that is none, are dropped.
-/

namespace SearchBox.Query

open SearchBox.Calendar SearchBox.Text

inductive CompileError where
  /-- A token has fewer values than its kind needs. -/
  | missingValue
  | numberTooLong
  deriving DecidableEq, Repr

def addNew (v : String) (values : List String) : List String :=
  if v ∈ values then values else values ++ [v]

theorem mem_addNew {v w : String} {values : List String} : w ∈ addNew v values ↔ w = v ∨ w ∈ values := by
  unfold addNew
  split
  · rename_i h
    exact ⟨.inr, fun | .inl e => e ▸ h | .inr h => h⟩
  · simp [or_comm]

theorem nodup_addNew {v : String} {values : List String} (h : values.Nodup) : (addNew v values).Nodup := by
  unfold addNew
  split
  · exact h
  · rename_i hv
    exact List.nodup_append.2 ⟨h, by simp, fun a ha b hb => by
      rw [List.mem_singleton] at hb; subst hb; exact fun e => hv (e ▸ ha)⟩

def singleSpaced (s : String) : String :=
  String.ofList (joinWith [' '] (words s.toList))

namespace Filter

def addDate (f : Filter) (clock : Clock) (lexicon : Lexicon) (value : String) :
    Except CompileError Filter :=
  let value := singleSpaced value
  if (lexicon.dayOffset? value).isSome then .ok { f with since := some value }
  else
    match clock.today? with
    | none => .ok f
    | some today =>
      match DaySpan.ofText? clock today value.toList with
      | .ok (some span) => .ok { f with day := some span }
      | .ok none => .ok f
      | .error _ => .error .numberTooLong

def addToken (clock : Clock) (lexicon : Lexicon) (f : Filter) (t : Token) : Except CompileError Filter :=
  match t.kind, t.values with
  | _, [] => .error .missingValue
  | .term, v :: _ => .ok { f with terms := f.terms ++ [v] }
  | .choice, v :: w :: _ => .ok { f with choices := f.choices ++ [(v, w)] }
  | .choice, [_] => .error .missingValue
  | .type, v :: _ => .ok { f with types := (lexicon.tagsOf v).foldl (fun types tag => addNew tag types) f.types }
  | .date, v :: _ => f.addDate clock lexicon v
  | .phrase, v :: _ => .ok (if isBlankText v.toList then f else { f with phrases := addNew v f.phrases })
  | .excludedPhrase, v :: _ =>
    .ok (if isBlankText v.toList then f else { f with excludedPhrases := addNew v f.excludedPhrases })
  | .excluded, v :: _ => .ok { f with excludedTerms := addNew v f.excludedTerms }
  | .object, v :: _ => .ok { f with objects := addNew v f.objects }
  | .text, v :: _ => .ok { f with texts := addNew v f.texts }
  | .format, v :: _ => .ok { f with formats := addNew v f.formats }
  | .site, v :: _ => .ok { f with sites := addNew v f.sites }
  | .tag, v :: _ => .ok { f with tags := addNew v f.tags }
  | .hashtag, v :: _ => .ok { f with tags := addNew v f.tags }

def ofTokens (clock : Clock) (lexicon : Lexicon) (tokens : List Token) : Except CompileError Filter := do
  let f ← tokens.foldlM (addToken clock lexicon) {}
  return { f with freeText := joined f.terms f.phrases }

end Filter

/-- The filter of a query. A blank query asks for nothing. -/
def compile (clock : Clock) (lexicon : Lexicon) (query : String) : Except CompileError Filter :=
  let s := strip query.toList
  if s.isEmpty then .ok {} else Filter.ofTokens clock lexicon (tokensOf lexicon s)

theorem compile_of_isBlankText {clock : Clock} {lexicon : Lexicon} {query : String}
    (h : isBlankText query.toList = true) : compile clock lexicon query = .ok {} := by
  simp [compile, strip_eq_nil_iff.2 h]

end SearchBox.Query

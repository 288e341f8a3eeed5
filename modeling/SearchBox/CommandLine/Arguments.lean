import SearchBox.Disk
import SearchBox.Number.Numeral
import SearchBox.Search.Arrange

/-!
  SearchBox.CommandLine.Arguments — the words after the program's name. Options start with a
  hyphen, take their value from the next word or after an equals sign, and count with their
  last value. Two hyphens alone end the options. What does not fit is a usage error, whatever
  is wrong with it.
-/

namespace SearchBox.CommandLine

open SearchBox.Number SearchBox.Search

/-- Options by name, and whether they take a value. -/
abbrev Options := List (String × Bool)

/-- Words sorted into options and other words, each in order. -/
structure Words where
  options : List (String × String) := []
  others : List String := []
  deriving DecidableEq, Repr

namespace Words

def addOption (name value : String) (w : Words) : Words :=
  { w with options := (name, value) :: w.options }

def addOther (word : String) (w : Words) : Words :=
  { w with others := word :: w.others }

def last? (w : Words) (name : String) : Option String :=
  w.options.reverse.lookup name

def has (w : Words) (name : String) : Bool :=
  (w.last? name).isSome

end Words

def isOption (word : String) : Bool :=
  match word.toList with
  | '-' :: _ :: _ => true
  | _ => false

/-- An option's name and the value after an equals sign, if there is one. -/
def splitValue (word : String) : String × Option String :=
  let name := word.toList.takeWhile (· ≠ '=')
  match word.toList.drop name.length with
  | '=' :: value => (String.ofList name, some (String.ofList value))
  | _ => (word, none)

/-- Sorts words, nothing if an option is unknown or does not fit. Where options are not `mixed`
    with other words, the first other word ends them. -/
def sortWords (options : Options) (mixed : Bool) : List String → Option Words
  | [] => some {}
  | word :: rest =>
    if word = "--" then some { others := rest }
    else if isOption word then
      let (name, value) := splitValue word
      match options.lookup name, value with
      | none, _ => none
      | some false, some _ => none
      | some false, none => (sortWords options mixed rest).map (Words.addOption name "")
      | some true, some value => (sortWords options mixed rest).map (Words.addOption name value)
      | some true, none =>
        match rest with
        | value :: later => (sortWords options mixed later).map (Words.addOption name value)
        | [] => none
    else if mixed then (sortWords options mixed rest).map (Words.addOther word)
    else some { others := word :: rest }

def helpOption : String × Bool :=
  ("--help", false)

structure SearchOptions where
  query : String
  records : Option String
  order : Option Order
  limit : Option Int
  explain : Bool
  deriving DecidableEq, Repr

inductive CommandName where
  | search
  | parse
  | syntaxSheet
  deriving DecidableEq, Repr

namespace CommandName

def name : CommandName → String
  | search => "search"
  | parse => "parse"
  | syntaxSheet => "syntax"

def ofName? (name : String) : Option CommandName :=
  [search, parse, syntaxSheet].find? (·.name = name)

theorem ofName?_name (n : CommandName) : ofName? n.name = some n := by
  cases n <;> decide

def options : CommandName → Options
  | search => [("--records", true), ("--sort", true), ("--limit", true), ("--explain", false), helpOption]
  | _ => [helpOption]

end CommandName

inductive Command where
  | search (o : SearchOptions)
  | parse (query : String)
  | cheatSheet
  | help (name : CommandName)
  deriving DecidableEq, Repr

/-- The value of an option that is read by `f`; nothing if it is there and cannot be read. -/
def optional {α : Type} (f : String → Option α) : Option String → Option (Option α)
  | none => some none
  | some s => (f s).map some

def positive? (s : String) : Option Int :=
  (readInteger? s.toList).filter (0 < ·)

def commandOf? (name : CommandName) (words : List String) : Option Command := do
  let w ← sortWords name.options true words
  if w.has "--help" then return .help name
  match name, w.others with
  | .search, [query] => do
    let order ← optional Order.ofName? (w.last? "--sort")
    let limit ← optional positive? (w.last? "--limit")
    return .search ⟨query, w.last? "--records", order, limit, w.has "--explain"⟩
  | .parse, [query] => return .parse query
  | .syntaxSheet, [] => return .cheatSheet
  | _, _ => none

/-- The words of a call: where the settings are, and the command with its own words, which are
    sorted later. -/
inductive Call where
  | help
  | command (settings : Option String) (name : CommandName) (words : List String)
  deriving DecidableEq, Repr

def callOf? (arguments : List String) : Option Call := do
  let w ← sortWords [("--config", true), helpOption] false arguments
  if w.has "--help" then return .help
  match w.others with
  | name :: words => return .command (w.last? "--config") (← CommandName.ofName? name) words
  | [] => none

end SearchBox.CommandLine

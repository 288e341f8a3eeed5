import SearchBox.Record
import SearchBox.Text.Blank
import SearchBox.Text.Caseless
import SearchBox.Url

/-!
  SearchBox.Record.Kind — the type tag of a record. A hint for a note, a note's URL or text
  without a URL make a note; else the host of the URL decides, then a hint for an image or an
  image's file name; all other records are articles.
-/

namespace SearchBox.Record

open SearchBox.Number SearchBox.Text

/-- The tags of well-known sites and the domains of each. -/
def siteTags : List (List String × String) :=
  [(["youtube.com", "youtu.be"], "youtube"),
   (["twitter.com", "x.com"], "tweet"),
   (["reddit.com", "redd.it"], "reddit"),
   (["wikipedia.org"], "wikipedia")]

/-- Whether a host is a domain or lies under it. -/
def isOnDomain (host domain : List Char) : Bool :=
  host = domain || ('.' :: domain).isSuffixOf host

def siteTag? (host : List Char) : Option String :=
  siteTags.findSome? fun (domains, tag) =>
    if domains.any fun d => isOnDomain host d.toList then some tag else none

def imageEndings : List String :=
  [".jpg", ".jpeg", ".png", ".gif", ".webp", ".svg"]

/-- Whether an image's ending stands at the front, and the end or a query after it. -/
def startsWithImageEnding (s : List Char) : Bool :=
  imageEndings.any fun ending =>
    match dropCaseless? ending.toList s with
    | some rest => rest.isEmpty || rest.head? = some '?'
    | none => false

/-- Whether an image's ending stands at the end of a URL or before a query. -/
def namesImage : List Char → Bool
  | [] => false
  | c :: rest => startsWithImageEnding (c :: rest) || namesImage rest

/-- The host of a URL that may lack its scheme. -/
def hostOf (url : List Char) : List Char :=
  if url.isEmpty then []
  else lower (Url.host (if occursIn "://".toList url then url else '/' :: '/' :: url))

/-- Whether a record has notes or a title. Without need the title is not read. -/
def hasText (r : Record) : Except WriteError Bool := do
  if (← r.field .notes) ≠ "" then return true else return (← r.field .title) ≠ ""

def isBare (r : Record) (url : List Char) : Except WriteError Bool :=
  if url.isEmpty then r.hasText else .ok false

/-- The tag of a record that is no note, by its hints and its URL. -/
def tagOf (explicit category : String) (url : List Char) : String :=
  match siteTag? (hostOf url) with
  | some tag => tag
  | none => if explicit = "image" || category = "image" || namesImage url then "image" else "article"

def kind (r : Record) : Except WriteError String := do
  let url := strip (← r.field .url).toList
  let explicit := lowerText (← r.field .type)
  let category := lowerText (← r.field .category)
  if explicit = "note" || category = "note" || "note://".toList.isPrefixOf (lower url) then return "note"
  else return if ← r.isBare url then "note" else tagOf explicit category url

end SearchBox.Record

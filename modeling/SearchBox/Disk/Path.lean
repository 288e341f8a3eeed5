import SearchBox.Text.Blank

/-!
  SearchBox.Disk.Path — paths of files and folders. Empty parts and parts for the same folder
  are left out; parts for the folder above stay, as what they mean may depend on links.
-/

namespace SearchBox.Disk

open SearchBox.Text

structure Path where
  /-- The slashes in front of an absolute path. -/
  root : String
  parts : List String
  deriving DecidableEq, Repr

namespace Path

def pieces (part : List Char) : List Char → List (List Char)
  | [] => [part.reverse]
  | c :: rest => if c = '/' then part.reverse :: pieces [] rest else pieces (c :: part) rest

/-- An absolute path starts with one slash; two and no more are kept. -/
def rootOf : List Char → String
  | '/' :: '/' :: '/' :: _ => "/"
  | '/' :: '/' :: _ => "//"
  | '/' :: _ => "/"
  | _ => ""

def ofText (s : String) : Path :=
  { root := rootOf s.toList
    parts := ((pieces [] s.toList).filter fun p => !p.isEmpty && p ≠ ['.']).map String.ofList }

/-- The path as text. The empty path is the current folder. -/
def text (p : Path) : String :=
  if p.root = "" && p.parts.isEmpty then "." else p.root ++ String.intercalate "/" p.parts

/-- A path below another one, or the second path itself if it is absolute. -/
def join (p q : Path) : Path :=
  if q.root = "" then { p with parts := p.parts ++ q.parts } else q

def parent (p : Path) : Path :=
  { p with parts := p.parts.dropLast }

/-- Parts with each part for the folder above taken together with the part before it; `above`
    holds the parts so far in reverse. -/
def resolvedParts (absolute : Bool) (above : List String) : List String → List String
  | [] => above.reverse
  | ".." :: rest =>
    match above with
    | [] => resolvedParts absolute (if absolute then [] else [".."]) rest
    | ".." :: _ => resolvedParts absolute (".." :: above) rest
    | _ :: before => resolvedParts absolute before rest
  | part :: rest => resolvedParts absolute (part :: above) rest

/-- The path with no detours, as far as it says. -/
def resolved (p : Path) : Path :=
  { root := if p.root = "" then "" else "/", parts := resolvedParts (p.root ≠ "") [] p.parts }

end Path
end SearchBox.Disk

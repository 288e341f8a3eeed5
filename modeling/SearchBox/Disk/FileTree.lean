import SearchBox.Disk

/-!
  SearchBox.Disk.FileTree — a file system in memory: files by their place below the current
  folder, or below the root of absolute paths, and the folders that were made. A folder is
  there if it was made or something lies in it.
-/

namespace SearchBox.Disk

/-- The parts from the current folder down. Absolute places start with a slash. -/
abbrev Place := List String

structure FileTree where
  files : List (Place × List UInt8)
  folders : List Place

namespace FileTree

inductive Node where
  | file (bytes : List UInt8)
  | folder
  | missing

def nodeAt (tree : FileTree) (place : Place) : Node :=
  match tree.files.lookup place with
  | some bytes => .file bytes
  | none =>
    if place.isEmpty || place = ["/"] || tree.files.any (fun (p, _) => place.isPrefixOf p) ||
        tree.folders.any (place.isPrefixOf ·) then .folder
    else .missing

def longestName : Nat := 255

/-- Follows parts from a place; all places on the way have to be folders. -/
def walk (tree : FileTree) (place : Place) : List String → Except DiskFault Place
  | [] => .ok place
  | part :: rest =>
    if longestName < part.utf8ByteSize then .error .nameTooLong
    else
      match tree.nodeAt place with
      | .file _ => .error .notAFolder
      | .missing => .error .notFound
      | .folder =>
        if part = ".." then
          match place.getLast? with
          | none => tree.walk [".."] rest
          | some ".." => tree.walk (place ++ [".."]) rest
          | some "/" => tree.walk place rest
          | some _ => tree.walk place.dropLast rest
        else tree.walk (place ++ [part]) rest

def find (tree : FileTree) (path : Path) : Except DiskError Place :=
  if path.parts.any (·.toList.contains '\x00') then .error ⟨.nullInPath, path.text⟩
  else (tree.walk (if path.root = "" then [] else ["/"]) path.parts).mapError (⟨·, path.text⟩)

def read (tree : FileTree) (path : Path) : Except DiskError (List UInt8) := do
  match tree.nodeAt (← tree.find path) with
  | .file bytes => return bytes
  | .folder => throw ⟨.isFolder, path.text⟩
  | .missing => throw ⟨.notFound, path.text⟩

/-- All files of a tree can be read. -/
def status (tree : FileTree) (path : Path) : Except DiskError PathStatus :=
  match tree.find path with
  | .ok place =>
    match tree.nodeAt place with
    | .file _ => .ok (.file true)
    | .folder => .ok .folder
    | .missing => .ok .nothing
  | .error e => if e.fault = .notFound ∨ e.fault = .notAFolder then .ok .nothing else .error e

def makeFolder (tree : FileTree) (path : Path) : Except DiskError FileTree := do
  let place ← tree.find path
  match tree.nodeAt place with
  | .folder => return tree
  | .file _ => throw ⟨.exists, path.text⟩
  | .missing => return { tree with folders := place :: tree.folders }

/-- Makes the folders of a path from the top down, starting with its first `done + 1` parts. A
    file on the way is met again at the next part. -/
def makeFolders (tree : FileTree) (path : Path) (done : Nat) : Nat → Except DiskError FileTree
  | 0 => .ok tree
  | more + 1 =>
    match tree.makeFolder { path with parts := path.parts.take (done + 1) } with
    | .ok tree => makeFolders tree path (done + 1) more
    | .error e => if e.fault = .exists ∧ 0 < more then makeFolders tree path (done + 1) more else .error e

def append (tree : FileTree) (path : Path) (text : String) : Except DiskError FileTree := do
  let place ← tree.find path
  let bytes := text.toUTF8.toList
  match tree.nodeAt place, tree.nodeAt place.dropLast with
  | .folder, _ => throw ⟨.isFolder, path.text⟩
  | .file old, _ =>
    return { tree with files := (place, old ++ bytes) :: tree.files.filter (·.1 ≠ place) }
  | .missing, .folder => return { tree with files := (place, bytes) :: tree.files }
  | .missing, _ => throw ⟨.notFound, path.text⟩

def change (f : FileTree → Except DiskError FileTree) : StateM FileTree (Except DiskError Unit) := do
  match f (← get) with
  | .ok tree =>
    set tree
    return .ok ()
  | .error e => return .error e

def disk : Disk (StateM FileTree) where
  read path := do return (← get).read path
  status path := do return (← get).status path
  makeFolders path := change fun tree => tree.makeFolders path 0 path.parts.length
  append path text := change fun tree => tree.append path text

end FileTree
end SearchBox.Disk

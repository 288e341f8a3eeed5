import SearchBox.Disk.Path
import SearchBox.Text.Quoted
import SearchBox.Text.Utf8

/-!
  SearchBox.Disk — what the program needs of a file system, as a record of operations that can
  be run against real files or a tree of files in memory, and texts read from files.
-/

namespace SearchBox

open SearchBox.Text

inductive DiskFault where
  | notFound
  | isFolder
  | notAFolder
  | exists
  | denied
  | nameTooLong
  | nullInPath
  | other (reason : String)
  deriving DecidableEq, Repr

structure DiskError where
  fault : DiskFault
  path : String
  deriving DecidableEq, Repr

def DiskError.message (e : DiskError) : String :=
  let numbered (reason : String) : String := reason ++ ": " ++ String.ofList (quoted e.path.toList)
  match e.fault with
  | .notFound => numbered "[Errno 2] No such file or directory"
  | .isFolder => numbered "[Errno 21] Is a directory"
  | .notAFolder => numbered "[Errno 20] Not a directory"
  | .exists => numbered "[Errno 17] File exists"
  | .denied => numbered "[Errno 13] Permission denied"
  | .nameTooLong => numbered "[Errno 36] File name too long"
  | .nullInPath => "embedded null byte"
  | .other reason => numbered reason

inductive PathStatus where
  | nothing
  | folder
  | file (readable : Bool)
  deriving DecidableEq, Repr

structure Disk (m : Type → Type) where
  read : Disk.Path → m (Except DiskError (List UInt8))
  /-- Fails where it cannot be told whether something lies there. -/
  status : Disk.Path → m (Except DiskError PathStatus)
  /-- Makes a folder and those above it; one that is there already is no error. -/
  makeFolders : Disk.Path → m (Except DiskError Unit)
  /-- Adds text at the end of a file, which is made if it is not there. -/
  append : Disk.Path → String → m (Except DiskError Unit)

inductive TextFileError where
  | disk (cause : DiskError)
  | encoding (cause : Utf8Error)
  deriving DecidableEq, Repr

def TextFileError.message : TextFileError → String
  | disk cause => cause.message
  | encoding cause => cause.message

/-- The text of a file, its lines ended by line feeds. -/
def Disk.readText {m : Type → Type} [Monad m] (disk : Disk m) (path : Disk.Path) :
    m (Except TextFileError (List Char)) := do
  match ← disk.read path with
  | .error e => return .error (.disk e)
  | .ok bytes =>
    match decodeUtf8 bytes with
    | .error e => return .error (.encoding e)
    | .ok s => return .ok (withLineFeeds s)

end SearchBox

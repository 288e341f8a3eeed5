import Std.Time.DateTime.Timestamp
import SearchBox.CommandLine

/-!
  SearchBox.Main — the program on real files, with the system's clock and time zone.
-/

namespace SearchBox.Main

open SearchBox.Calendar SearchBox.CommandLine

/-! ## Files -/

def faultOf : IO.Error → DiskFault
  | .noFileOrDirectory _ _ _ => .notFound
  | .permissionDenied _ _ _ => .denied
  | .alreadyExists _ _ _ => .exists
  | .inappropriateType _ code _ => if code = 21 then .isFolder else .notAFolder
  | e => .other (toString e)

def answered {α : Type} (path : Disk.Path) (x : IO α) : IO (Except DiskError α) := do
  try return .ok (← x)
  catch e => return .error ⟨faultOf e, path.text⟩

def readBytes (path : Disk.Path) : IO (Except DiskError (List UInt8)) :=
  answered path do return (← IO.FS.readBinFile path.text).toList

def disk : Disk IO where
  read := readBytes
  status path := do
    match ← readBytes path with
    | .ok _ => return .ok (.file true)
    | .error ⟨.isFolder, _⟩ => return .ok .folder
    | .error ⟨.denied, _⟩ => return .ok (.file false)
    | .error ⟨.notFound, _⟩ => return .ok .nothing
    | .error ⟨.notAFolder, _⟩ => return .ok .nothing
    | .error e => return .error e
  makeFolders path := answered path (IO.FS.createDirAll path.text)
  append path text := answered path do (← IO.FS.Handle.mk path.text .append).putStr text

/-! ## Clock -/

/-- The rule in the last line of a compiled zone file. -/
def ruleOf (bytes : List UInt8) : String :=
  let line := (bytes.reverse.dropWhile (· = 10)).takeWhile (· ≠ 10)
  String.ofList (line.reverse.map fun b => Char.ofNat b.toNat)

def zoneOfFile (path : String) : IO Zone := do
  match ← readBytes (Disk.Path.ofText path) with
  | .ok bytes => return (Zone.read? (ruleOf bytes)).getD Zone.utc
  | .error _ => return Zone.utc

/-- The zone that the environment names or gives the rule of, else the system's. -/
def localZone : IO Zone := do
  match ← IO.getEnv "TZ" with
  | none => zoneOfFile "/etc/localtime"
  | some rule =>
    match Zone.read? rule with
    | some zone => return zone
    | none => zoneOfFile ("/usr/share/zoneinfo/" ++ rule)

def clock : IO Clock := do
  let nanoseconds := (← Std.Time.Timestamp.now).toNanosecondsSinceUnixEpoch.val
  return ⟨Moment.universal ((epochDay : Int) * microsPerDay + nanoseconds / 1000), ← localZone⟩

/-! ## The call -/

/-- The usage line and the first line of the description. -/
def help : Option CommandName → String
  | none => "Usage: stashquery [OPTIONS] COMMAND [ARGS]...\n\n  StashQuery: filter saved items with search box syntax.\n"
  | some .search => "Usage: stashquery search [OPTIONS] QUERY\n\n  Search saved items with QUERY.\n"
  | some .parse => "Usage: stashquery parse [OPTIONS] QUERY\n\n  Print the filters compiled from QUERY as JSON.\n"
  | some .syntaxSheet => "Usage: stashquery syntax [OPTIONS]\n\n  Print the search syntax cheat sheet.\n"

/-- No file of variables is taken over. -/
def system : IO (System IO) := do
  return { disk := disk, clock := ← clock, loadVariables := pure (.ok ()), help := help }

end SearchBox.Main

open SearchBox.CommandLine in
def main (arguments : List String) : IO UInt32 := do
  let system ← SearchBox.Main.system
  let outcome ← run system (arguments.map fun word => word.toUTF8.toList)
  IO.print outcome.output
  IO.eprint outcome.errors
  match outcome.ending with
  | .usage => IO.eprint (system.help none)
  | .crash cause => IO.eprintln cause.message
  | .untold => IO.eprintln "half of a surrogate pair"
  | _ => return outcome.ending.exitCode.toUInt32
  return outcome.ending.exitCode.toUInt32

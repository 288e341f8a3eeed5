import SearchBox.Disk
import SearchBox.Settings
import SearchBox.Settings.Merge
import SearchBox.Yaml

/-!
  SearchBox.Settings.File — settings in YAML files. A file may be laid over a second one with
  the defaults, which is read first.
-/

namespace SearchBox.Settings

inductive LoadError where
  | noText (cause : TextFileError)
  | noDocument (cause : Yaml.YamlError)
  | rejected (cause : SettingsError)
  deriving DecidableEq

def LoadError.message : LoadError → String
  | noText cause => cause.message
  | noDocument cause => cause.message
  | rejected cause => cause.message

def entriesOfText (text : List Char) : Except LoadError Entries := do
  (root (← (Yaml.read text).mapError .noDocument)).mapError .rejected

def layered (defaults entries : Entries) : Except LoadError Settings :=
  (ofEntries (merge defaults entries)).mapError .rejected

variable {m : Type → Type} [Monad m]

def readEntries (disk : Disk m) (path : Disk.Path) : ExceptT LoadError m Entries := do
  match ← disk.readText path with
  | .ok text => ExceptT.mk (pure (entriesOfText text))
  | .error e => throw (.noText e)

def load (disk : Disk m) (path : Disk.Path) : ExceptT LoadError m Settings := do
  let entries ← readEntries disk path
  ExceptT.mk (pure ((ofEntries entries).mapError .rejected))

def loadOverText (disk : Disk m) (path : Disk.Path) (defaults : List Char) : ExceptT LoadError m Settings := do
  let defaults ← ExceptT.mk (pure (entriesOfText defaults))
  let entries ← readEntries disk path
  ExceptT.mk (pure (layered defaults entries))

def hasFile (disk : Disk m) (path : Disk.Path) : ExceptT LoadError m Bool := do
  match ← disk.status path with
  | .ok (.file _) => return true
  | .ok _ => return false
  | .error e => throw (.noText (.disk e))

/-- The settings of a file laid over those of another one. The defaults are not laid over
    themselves. -/
def loadOver (disk : Disk m) (path defaultsPath : Disk.Path) : ExceptT LoadError m Settings := do
  if path.resolved = defaultsPath.resolved then load disk defaultsPath
  else
    let defaults ← readEntries disk defaultsPath
    let entries ← readEntries disk path
    ExceptT.mk (pure (layered defaults entries))

/-- The settings of a file, laid over those of another one if that is there. -/
def loadLayered (disk : Disk m) (path defaultsPath : Disk.Path) : ExceptT LoadError m Settings := do
  if path = defaultsPath then load disk path
  else if ← hasFile disk defaultsPath then loadOver disk path defaultsPath
  else load disk path

end SearchBox.Settings

import SearchBox.Disk.FileTree
import SearchBox.Proofs.Fallible
import SearchBox.Settings.File

/-!
  SearchBox.Proofs.Settings.File — what is loaded from a disk that stays as it is while it is looked
  at (`Disk.IsSteady`): the settings of the entries that its files hold (`run_loadLayered`). Where a
  document is blamed, it is one that a file holds (`loadLayeredAt_failsWith`).
-/

namespace SearchBox

open SearchBox.Text

variable {σ : Type}

/-- Looking at files leaves a disk as it is. -/
structure Disk.IsSteady (disk : Disk (StateM σ)) : Prop where
  read : ∀ path s, (disk.read path s).2 = s
  status : ∀ path s, (disk.status path s).2 = s

theorem Disk.FileTree.isSteady_disk : FileTree.disk.IsSteady :=
  ⟨fun _ _ => rfl, fun _ _ => rfl⟩

theorem Disk.readText_eq (disk : Disk (StateM σ)) (path : Disk.Path) (s : σ) :
    disk.readText path s = (match (disk.read path s).1 with
      | .error e => return .error (.disk e)
      | .ok bytes =>
        match decodeUtf8 bytes with
        | .error e => return .error (.encoding e)
        | .ok text => return .ok (withLineFeeds text) : StateM σ (Except TextFileError (List Char)))
      (disk.read path s).2 :=
  rfl

theorem Disk.IsSteady.readText {disk : Disk (StateM σ)} (hd : disk.IsSteady) (path : Disk.Path) (s : σ) :
    (disk.readText path s).2 = s := by
  rw [disk.readText_eq, hd.read]
  cases (disk.read path s).1 with
  | error e => rfl
  | ok bytes =>
    dsimp only
    cases decodeUtf8 bytes <;> rfl

namespace Settings

variable {disk : Disk (StateM σ)}

/-- The entries of a file, as the disk is in a state. -/
def entriesAt (disk : Disk (StateM σ)) (s : σ) (path : Disk.Path) : Except LoadError Entries := do
  entriesOfText (← (disk.readText path s).1.mapError .noText)

theorem run_readEntries_eq (disk : Disk (StateM σ)) (path : Disk.Path) (s : σ) :
    (readEntries disk path).run.run s = (match (disk.readText path s).1 with
      | .ok text => ExceptT.mk (pure (entriesOfText text))
      | .error e => throw (.noText e) : ExceptT LoadError (StateM σ) Entries) (disk.readText path s).2 :=
  rfl

theorem run_readEntries (hd : disk.IsSteady) (path : Disk.Path) (s : σ) :
    (readEntries disk path).run.run s = (entriesAt disk s path, s) := by
  rw [run_readEntries_eq, hd.readText, entriesAt]
  cases (disk.readText path s).1 <;> rfl

def loadAt (disk : Disk (StateM σ)) (s : σ) (path : Disk.Path) : Except LoadError Settings := do
  (ofEntries (← entriesAt disk s path)).mapError .rejected

theorem run_load (hd : disk.IsSteady) (path : Disk.Path) (s : σ) :
    (load disk path).run.run s = (loadAt disk s path, s) := by
  unfold load
  rw [ExceptT.run_bind, StateT.run_bind, run_readEntries hd, loadAt]
  cases entriesAt disk s path <;> rfl

def loadOverAt (disk : Disk (StateM σ)) (s : σ) (path defaultsPath : Disk.Path) : Except LoadError Settings :=
  if path.resolved = defaultsPath.resolved then loadAt disk s defaultsPath
  else do layered (← entriesAt disk s defaultsPath) (← entriesAt disk s path)

theorem run_loadOver (hd : disk.IsSteady) (path defaultsPath : Disk.Path) (s : σ) :
    (loadOver disk path defaultsPath).run.run s = (loadOverAt disk s path defaultsPath, s) := by
  unfold loadOver loadOverAt
  split
  · exact run_load hd defaultsPath s
  · rw [ExceptT.run_bind, StateT.run_bind, run_readEntries hd]
    cases entriesAt disk s defaultsPath with
    | error e => rfl
    | ok defaults =>
      show (readEntries disk path >>= fun entries => ExceptT.mk (pure (layered defaults entries))).run.run s = _
      rw [ExceptT.run_bind, StateT.run_bind, run_readEntries hd]
      cases entriesAt disk s path <;> rfl

def hasFileAt (disk : Disk (StateM σ)) (s : σ) (path : Disk.Path) : Except LoadError Bool :=
  match (disk.status path s).1 with
  | .ok (.file _) => .ok true
  | .ok _ => .ok false
  | .error e => .error (.noText (.disk e))

theorem run_hasFile_eq (disk : Disk (StateM σ)) (path : Disk.Path) (s : σ) :
    (hasFile disk path).run.run s = (match (disk.status path s).1 with
      | .ok (.file _) => return true
      | .ok _ => return false
      | .error e => throw (.noText (.disk e)) : ExceptT LoadError (StateM σ) Bool) (disk.status path s).2 :=
  rfl

theorem run_hasFile (hd : disk.IsSteady) (path : Disk.Path) (s : σ) :
    (hasFile disk path).run.run s = (hasFileAt disk s path, s) := by
  rw [run_hasFile_eq, hd.status, hasFileAt]
  rcases (disk.status path s).1 with e | _ | _ | readable <;> rfl

def loadLayeredAt (disk : Disk (StateM σ)) (s : σ) (path defaultsPath : Disk.Path) : Except LoadError Settings :=
  if path = defaultsPath then loadAt disk s path
  else do
    if ← hasFileAt disk s defaultsPath then loadOverAt disk s path defaultsPath else loadAt disk s path

theorem run_loadLayered (hd : disk.IsSteady) (path defaultsPath : Disk.Path) (s : σ) :
    (loadLayered disk path defaultsPath).run.run s = (loadLayeredAt disk s path defaultsPath, s) := by
  unfold loadLayered loadLayeredAt
  split
  · exact run_load hd path s
  · rw [ExceptT.run_bind, StateT.run_bind, run_hasFile hd]
    cases hasFileAt disk s defaultsPath with
    | error e => rfl
    | ok isLaid =>
      cases isLaid with
      | true => exact run_loadOver hd path defaultsPath s
      | false => exact run_load hd path s

/-! ## Documents that are blamed -/

/-- A file holds a text that is no document. -/
def HasFault (disk : Disk (StateM σ)) (s : σ) (path : Disk.Path) (cause : Yaml.YamlError) : Prop :=
  ∃ text, (disk.readText path s).1 = .ok text ∧ Yaml.read text = .error cause

/-- If a document is blamed, then for a cause as given. -/
def LoadError.Blames (P : Yaml.YamlError → Prop) : LoadError → Prop
  | .noDocument cause => P cause
  | _ => True

theorem LoadError.blames_mono {P Q : Yaml.YamlError → Prop} (h : ∀ cause, P cause → Q cause) (e : LoadError)
    (he : e.Blames P) : e.Blames Q := by
  cases e with
  | noDocument cause => exact h cause he
  | noText | rejected => trivial

theorem rejected_failsWith {α : Type} (P : Yaml.YamlError → Prop) (x : Except SettingsError α) :
    FailsWith (LoadError.Blames P) (x.mapError .rejected) := by
  cases x with
  | ok a => exact failsWith_ok a
  | error e => exact failsWith_error trivial

theorem entriesAt_failsWith (disk : Disk (StateM σ)) (s : σ) (path : Disk.Path) :
    FailsWith (LoadError.Blames (HasFault disk s path)) (entriesAt disk s path) := by
  unfold entriesAt
  cases htext : (disk.readText path s).1 with
  | error e => exact failsWith_error trivial
  | ok text =>
    show FailsWith _ (entriesOfText text)
    unfold entriesOfText
    cases hread : Yaml.read text with
    | error cause => exact failsWith_error ⟨text, htext, hread⟩
    | ok document => exact rejected_failsWith _ (root document)

theorem loadLayeredAt_failsWith (disk : Disk (StateM σ)) (s : σ) (path defaultsPath : Disk.Path) :
    FailsWith (LoadError.Blames fun cause => HasFault disk s path cause ∨ HasFault disk s defaultsPath cause)
      (loadLayeredAt disk s path defaultsPath) := by
  have hpath := (entriesAt_failsWith disk s path).mono fun e => e.blames_mono
    fun cause h => (.inl h : _ ∨ HasFault disk s defaultsPath cause)
  have hdefaults := (entriesAt_failsWith disk s defaultsPath).mono fun e => e.blames_mono
    fun cause h => (.inr h : HasFault disk s path cause ∨ _)
  have hload := hpath.bind fun es _ => rejected_failsWith _ (ofEntries es)
  unfold loadLayeredAt
  split
  · exact hload
  · refine FailsWith.bind ?_ fun isLaid _ => ?_
    · unfold hasFileAt
      rcases (disk.status defaultsPath s).1 with e | _ | _ | readable
      · exact failsWith_error trivial
      all_goals exact failsWith_ok _
    · split
      · unfold loadOverAt
        split
        · exact hdefaults.bind fun es _ => rejected_failsWith _ _
        · exact hdefaults.bind fun d _ => hpath.bind fun es _ => rejected_failsWith _ _
      · exact hload

/-- What is loaded are the settings of some entries. -/
theorem exists_ofEntries_of_loadLayeredAt {s : σ} {path defaultsPath : Disk.Path} {settings : Settings}
    (h : loadLayeredAt disk s path defaultsPath = .ok settings) : ∃ entries, ofEntries entries = .ok settings := by
  have hload : ∀ path, loadAt disk s path = .ok settings → ∃ entries, ofEntries entries = .ok settings := by
    intro path h
    obtain ⟨es, -, h⟩ := bind_eq_ok.1 h
    exact ⟨es, mapError_eq_ok.1 h⟩
  unfold loadLayeredAt at h
  split at h
  · exact hload path h
  · obtain ⟨isLaid, -, h⟩ := bind_eq_ok.1 h
    split at h
    · unfold loadOverAt at h
      split at h
      · exact hload defaultsPath h
      · obtain ⟨d, -, h⟩ := bind_eq_ok.1 h
        obtain ⟨es, -, h⟩ := bind_eq_ok.1 h
        exact ⟨merge d es, mapError_eq_ok.1 h⟩
    · exact hload path h

end Settings
end SearchBox

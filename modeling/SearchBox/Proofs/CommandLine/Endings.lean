import SearchBox.Proofs.CommandLine.Steps
import SearchBox.Proofs.Query.Stored
import SearchBox.Proofs.Query.Total
import SearchBox.Proofs.Settings.Accepted
import SearchBox.Proofs.Settings.File

/-!
  SearchBox.Proofs.CommandLine.Endings — how calls end (`run_ends`). A call succeeds, is a usage
  error, or fails with a report, unless a fault crashes it:

  (1) a word in the place of a file holds a NUL character;
  (2) the file of variables cannot be taken over;
  (3) a document of settings is blamed for what is not reported;
  (4) the log file cannot be made;
  (5) a query to be printed has a number too long to be divided.

  There are such calls (`run_crashes`). Of a call that comes upon half of a surrogate pair only
  this is said, and where the half lies (`IsUntold`). The clock and the variables are arbitrary;
  the disk is one that stays as it is while it is looked at.
-/

namespace SearchBox.CommandLine

open SearchBox.Calendar SearchBox.Log SearchBox.Query SearchBox.Search SearchBox.Settings

variable {σ : Type} {sys : System (StateM σ)} {E : Ending → Session → σ → Prop} {s₀ : σ}

/-! ## Settings -/

def settingsPath (place : Option String) : Disk.Path :=
  Disk.Path.ofText (place.getD defaultsPath.text)

def settingsAt (disk : Disk (StateM σ)) (s : σ) (path : Disk.Path) : Except LoadError Settings :=
  loadLayeredAt disk s path defaultsPath

def refusedSettings (path : Disk.Path) (e : LoadError) : String :=
  "Error: Cannot load config " ++ path.text ++ ": " ++ e.message ++ "\n"

section LoadSettings

variable {disk : Disk (StateM σ)} {path : Disk.Path}
  (hreport : ∀ t s e, settingsAt disk s₀ path = .error e → t.errors = refusedSettings path e → E .failure t s)
  (hcrash : ∀ t s cause, settingsAt disk s₀ path = .error (.noDocument cause) → isReported cause = false →
    E (.crash (.settings cause)) t s)
  (huntold : ∀ t s, settingsAt disk s₀ path = .error (.noDocument .halfPair) → E .untold t s)
include hreport hcrash huntold

theorem leads_refuseSettings {e : LoadError} {Q : Settings → Session → σ → Prop}
    (he : settingsAt disk s₀ path = .error e) :
    Leads (fun t _ => t.errors = "") (refuseSettings path e) Q E := by
  have hfail : Leads (fun t _ => t.errors = "") (fail (refusedSettings path e)) Q E :=
    leads_fail fun t s hsilent => hreport _ s e he (by simp [hsilent])
  unfold refuseSettings
  dsimp only
  split
  · exact leads_throw fun t s _ => huntold t s he
  · split
    · exact hfail
    · rename_i hsilent
      exact leads_throw fun t s _ => hcrash t s _ he (by simpa using hsilent)
  · exact hfail

theorem leads_loadSettings (hd : disk.IsSteady) :
    Leads (fun t s => t.errors = "" ∧ s = s₀) (loadSettings disk path)
      (fun settings _ s => settingsAt disk s₀ path = .ok settings ∧ s = s₀) E := by
  unfold loadSettings
  refine Leads.bind (Q := fun loaded t s => loaded = settingsAt disk s₀ path ∧ t.errors = "" ∧ s = s₀)
    (leads_onDisk fun t s ⟨hsilent, hs⟩ => ?_) fun loaded => Leads.assume fun hloaded => ?_
  · subst hs
    have hrun := run_loadLayered hd path defaultsPath s
    exact ⟨congrArg Prod.fst hrun, hsilent, congrArg Prod.snd hrun⟩
  · cases loaded with
    | ok settings => exact leads_pure fun t s h => ⟨hloaded.symm, h.2⟩
    | error e => exact (leads_refuseSettings hreport hcrash huntold hloaded.symm).of fun t s h => h.1

end LoadSettings

/-! ## Endings -/

/-- The state once the variables are taken over. -/
def System.ready (sys : System (StateM σ)) (s : σ) : σ :=
  (sys.loadVariables s).2

section Endings

variable (sys : System (StateM σ)) (words : List String) (s : σ)

/-- What the console says of a call that failed: why the settings cannot be loaded, and nothing
    else, or last why the search failed. -/
inductive IsReport : String → Prop where
  | settings {place name rest cause} (hcall : callOf? words = some (.command place name rest))
      (hcause : settingsAt sys.disk (sys.ready s) (settingsPath place) = .error cause) :
      IsReport (refusedSettings (settingsPath place) cause)
  | search {place rest settings} (hcall : callOf? words = some (.command place .search rest))
      (hsettings : settingsAt sys.disk (sys.ready s) (settingsPath place) = .ok settings) (before reason : String) :
      IsReport (before ++ failedSearch sys.clock settings.level reason)

/-- Faults of documents that are not reported. -/
inductive IsUnreported : Yaml.YamlError → Prop where
  | malformed : IsUnreported .malformed
  | emptyNumber : IsUnreported .emptyNumber
  | unknownTruth (word : List Char) : IsUnreported (.unknownTruth word)
  | noTimestamp : IsUnreported .noTimestamp
  | codeTooLarge {code : Nat} (h : Yaml.greatestCode < code) : IsUnreported (.codeTooLarge code)

/-- What makes a call crash that starts in a state. -/
inductive IsCause : Crash → Prop where
  /-- The path of the settings is none that a file can have. -/
  | place {place name rest e} (hcall : callOf? words = some (.command place name rest))
      (he : (sys.disk.status (settingsPath place) s).1 = .error e) (hnull : e.fault = .nullInPath) :
      IsCause (.path e)
  /-- The path of the records, where the call names one, is none that a file can have. -/
  | records {place rest o word e} (hcall : callOf? words = some (.command place .search rest))
      (hcommand : commandOf? .search rest = some (.search o)) (hword : o.records = some word)
      (he : (sys.disk.status (Disk.Path.ofText word) (sys.ready s)).1 = .error e) (hnull : e.fault = .nullInPath) :
      IsCause (.path e)
  | environment {place name rest reason} (hcall : callOf? words = some (.command place name rest))
      (hreason : (sys.loadVariables s).1 = .error reason) : IsCause (.environment reason)
  /-- A document is at fault, in a way that is not reported. -/
  | settings {place name rest cause} (hcall : callOf? words = some (.command place name rest))
      (hsettings : settingsAt sys.disk (sys.ready s) (settingsPath place) = .error (.noDocument cause))
      (hfault : HasFault sys.disk (sys.ready s) (settingsPath place) cause ∨
        HasFault sys.disk (sys.ready s) defaultsPath cause)
      (hcause : IsUnreported cause) : IsCause (.settings cause)
  /-- The log file that the settings ask for cannot be made. -/
  | logFile {place name rest settings e} (hcall : callOf? words = some (.command place name rest))
      (hname : name = .search ∨ name = .parse)
      (hsettings : settingsAt sys.disk (sys.ready s) (settingsPath place) = .ok settings)
      (hfile : settings.logToFile = true)
      (he : (makeLog sys.disk (actionPath settings.logFolder name.name sys.clock.wallNow) (sys.ready s)).1 = .error e) :
      IsCause (.logFile e)
  /-- A query to be printed has a date with a number too long to be divided. -/
  | query {place rest query settings v e} (hcall : callOf? words = some (.command place .parse rest))
      (hcommand : commandOf? .parse rest = some (.parse query))
      (hsettings : settingsAt sys.disk (sys.ready s) (settingsPath place) = .ok settings)
      (hv : v ∈ writtenDates settings.lexicon (queryTokens settings.lexicon (.text query)))
      (hlong : ¬ DividesDate sys.clock v) : IsCause (.query e)

/-- Where a call comes upon half of a surrogate pair, as things are in the end: in a document
    of settings, or in the file of records. -/
inductive IsUntold (s' : σ) : Prop where
  | settings {place name rest} (hcall : callOf? words = some (.command place name rest))
      (hfault : HasFault sys.disk (sys.ready s) (settingsPath place) .halfPair ∨
        HasFault sys.disk (sys.ready s) defaultsPath .halfPair)
  | records {place rest o settings} (hcall : callOf? words = some (.command place .search rest))
      (hcommand : commandOf? .search rest = some (.search o))
      (hsettings : settingsAt sys.disk (sys.ready s) (settingsPath place) = .ok settings)
      (hhalf : holdsHalfPair (sys.disk.readText (.ofText (o.records.getD settings.storePath)) s').1 = true)

/-- How a call with these words may end, what it has said, and in which state. -/
inductive MayEnd : Ending → String → σ → Prop where
  | success (errors : String) (s' : σ) : MayEnd .success errors s'
  | usage (errors : String) (s' : σ) : MayEnd .usage errors s'
  | failure {errors : String} (s' : σ) (h : IsReport sys words s errors) : MayEnd .failure errors s'
  | crash {cause : Crash} (errors : String) (s' : σ) (h : IsCause sys words s cause) : MayEnd (.crash cause) errors s'
  | untold (errors : String) {s' : σ} (h : IsUntold sys words s s') : MayEnd .untold errors s'

end Endings

variable {place : Option String} {name : CommandName} {words rest : List String} {settings : Settings}

theorem isUnreported_of_isReported {cause : Yaml.YamlError} (h : isReported cause = false) : IsUnreported cause := by
  cases cause with
  | codeTooLarge code => exact .codeTooLarge (by simpa [isReported] using h)
  | malformed => exact .malformed
  | emptyNumber => exact .emptyNumber
  | unknownTruth word => exact .unknownTruth word
  | noTimestamp => exact .noTimestamp
  | _ => cases h

/-! ## Commands -/

theorem leads_isRefused {disk : Disk (StateM σ)} (hd : disk.IsSteady) {P : Session → σ → Prop} {word : String}
    (hE : ∀ t s e, P t s → word ≠ "" → (disk.status (Disk.Path.ofText word) s).1 = .error e →
      e.fault = .nullInPath → E (.crash (.path e)) t s) :
    Leads P (isRefused disk word) (fun _ => P) E := by
  unfold isRefused
  split
  · exact leads_pure fun t s h => h
  rename_i hword
  refine Leads.bind (Q := fun status t s => status = (disk.status (Disk.Path.ofText word) s).1 ∧ P t s)
    (leads_onDisk fun t s h => by rw [hd.status]; exact ⟨rfl, h⟩) fun status => ?_
  rcases status with e | _ | _ | readable
  · dsimp only
    split
    · rename_i hnull
      exact leads_throw fun t s h => hE t s e h.2 hword h.1.symm hnull
    · exact leads_pure fun t s h => h.2
  all_goals exact leads_pure fun t s h => h.2

theorem leads_runSearch (hd : sys.disk.IsSteady) {o : SearchOptions}
    (hcall : callOf? words = some (.command place .search rest))
    (hcommand : commandOf? .search rest = some (.search o))
    (hsettings : settingsAt sys.disk (sys.ready s₀) (settingsPath place) = .ok settings) :
    Leads (fun _ s => s = sys.ready s₀) (runSearch sys.disk sys.clock settings o) (fun _ _ _ => True)
      fun e t => MayEnd sys words s₀ e t.errors := by
  have hE : ∀ (t : Session) s before reason, t.errors = before ++ failedSearch sys.clock settings.level reason →
      MayEnd sys words s₀ .failure t.errors s :=
    fun t s before reason h => .failure s (h ▸ .search hcall hsettings before reason)
  unfold runSearch
  refine (leads_openLog fun t s e hfile he => ?_).bind fun _ => ?_
  · exact .crash _ s (.logFile hcall (.inl rfl) hsettings hfile he)
  refine (leads_searchResult hE _ _).bind fun writers => ?_
  refine (leads_readStore hE hd fun t s hhalf => ?_).bind fun records => ?_
  · exact .untold _ (.records hcall hcommand hsettings hhalf)
  refine (leads_tell (I := fun t => t.level = settings.level) _).bind fun _ => ?_
  refine (leads_telling _).bind fun found => Leads.assume fun _ => ?_
  refine (leads_searchResult hE _ _).bind fun result => ?_
  refine (leads_forM_tell _).bind fun _ => ?_
  split
  · exact leads_failSearch hE _
  · exact leads_modify fun t s h => trivial

theorem exists_toEntries {f : Filter} (h : ∀ span ∈ f.day, span.first.offsetUsable = true ∧ span.last.offsetUsable = true) :
    ∃ es, f.toEntries = .ok es := by
  unfold Filter.toEntries
  cases hday : f.day with
  | none => exact ⟨_, rfl⟩
  | some span =>
    obtain ⟨hfirst, hlast⟩ := h span hday
    simp only [Filter.dayValue, Moment.milliText?, hfirst, hlast, if_true]
    exact ⟨_, rfl⟩

/-- The filter of a query can be written if the words are those of accepted settings. -/
theorem exists_toEntries_of_compile {clock : Clock} (hzone : ∀ seconds, IsUsual (clock.zone.offsetAt seconds)) {entries : Entries}
    (hsettings : ofEntries entries = .ok settings) {query : String} {f : Filter}
    (h : compile clock settings.lexicon query = .ok f) : ∃ es, f.toEntries = .ok es := by
  have hpresets : ∀ e ∈ Table.update Lexicon.builtin.presets settings.presets, e.1 ≠ "" := by
    have husable := (isUsable_of_ofEntries hsettings).preset
    rw [(lexicon_of_ofEntries hsettings).1] at husable
    exact fun e he => (husable e he).2
  have hlexicon : settings.lexicon = .ofWrites (Table.update Lexicon.builtin.presets settings.presets)
      (Table.update Lexicon.builtin.kinds settings.kinds) := rfl
  rw [hlexicon] at h
  refine exists_toEntries fun span hspan => ?_
  obtain ⟨day, hday⟩ := (Filter.isCompiled_of_compile hpresets h).day span hspan
  exact ofDay_offsetUsable hzone hday

theorem leads_runParse (hzone : ∀ seconds, IsUsual (sys.clock.zone.offsetAt seconds))
    {query : String} (hcall : callOf? words = some (.command place .parse rest))
    (hcommand : commandOf? .parse rest = some (.parse query))
    (hsettings : settingsAt sys.disk (sys.ready s₀) (settingsPath place) = .ok settings) :
    Leads (fun _ s => s = sys.ready s₀) (runParse sys.disk sys.clock settings query) (fun _ _ _ => True)
      fun e t => MayEnd sys words s₀ e t.errors := by
  unfold runParse
  refine (leads_openLog fun t s e hfile he => ?_).bind fun _ => ?_
  · exact .crash _ s (.logFile hcall (.inr rfl) hsettings hfile he)
  refine (leads_telling _).bind fun compiled => Leads.assume fun hcompiled => ?_
  replace hcompiled : answerOf (compileLogged sys.clock settings.lexicon (.text query)) [] = compiled := hcompiled.symm
  cases compiled with
  | error e =>
    have hlong : ¬ ∀ v ∈ writtenDates settings.lexicon (queryTokens settings.lexicon (.text query)),
        DividesDate sys.clock v := by
      intro hshort
      obtain ⟨f, hf⟩ := (compileLogged_answers sys.clock settings.lexicon (.text query) []).1.2 hshort
      cases hcompiled.symm.trans hf
    push Not at hlong
    obtain ⟨v, hv, hlong⟩ := hlong
    exact leads_throw fun t s h => .crash _ s (.query hcall hcommand hsettings hv hlong)
  | ok f =>
    obtain ⟨entries, hentries⟩ := exists_ofEntries_of_loadLayeredAt hsettings
    rw [compileLogged_eq_ofTokens] at hcompiled
    obtain ⟨es, hes⟩ := exists_toEntries_of_compile hzone hentries
      ((compile_eq_ofTokens _ _ query).trans (mapError_eq_ok.1 hcompiled))
    dsimp only
    rw [hes]
    exact leads_modify fun t s h => trivial

/-- Commands are those of their names. -/
theorem name_of_commandOf? {name : CommandName} {command : Command} (h : commandOf? name rest = some command) :
    (∀ o, command = .search o → name = .search) ∧ ∀ query, command = .parse query → name = .parse := by
  obtain ⟨w, -, h⟩ := Option.bind_eq_some_iff.1 h
  split at h
  · cases h
    exact ⟨nofun, nofun⟩
  · split at h
    · exact ⟨fun _ _ => rfl, fun query heq => by subst heq; simp [Option.bind_eq_some_iff] at h⟩
    · cases h
      exact ⟨nofun, fun _ _ => rfl⟩
    · cases h
      exact ⟨nofun, nofun⟩
    · cases h

theorem leads_runCommand (hd : sys.disk.IsSteady) (hzone : ∀ seconds, IsUsual (sys.clock.zone.offsetAt seconds))
    {name : CommandName} {command : Command} (hcall : callOf? words = some (.command place name rest))
    (hcommand : commandOf? name rest = some command)
    (hsettings : settingsAt sys.disk (sys.ready s₀) (settingsPath place) = .ok settings) :
    Leads (fun _ s => s = sys.ready s₀) (runCommand sys settings command) (fun _ _ _ => True)
      fun e t => MayEnd sys words s₀ e t.errors := by
  have hname := name_of_commandOf? hcommand
  cases command with
  | help | cheatSheet => exact leads_modify fun t s h => trivial
  | parse query =>
    cases hname.2 query rfl
    exact leads_runParse hzone hcall hcommand hsettings
  | search o =>
    cases hname.1 o rfl
    refine (leads_isRefused hd fun t s e hs hword he hnull => ?_).bind fun isRefused => ?_
    · cases hrecords : o.records with
      | none => simp [hrecords] at hword
      | some word => exact .crash _ s (.records hcall hcommand hrecords (by simpa [hrecords, hs] using he) hnull)
    · refine (leads_endIf fun t s _ _ => .usage _ s).bind fun _ => ?_
      exact leads_runSearch hd hcall hcommand hsettings

theorem leads_loadVariables (hcall : callOf? words = some (.command place name rest)) :
    Leads (fun t s => t.errors = "" ∧ s = s₀) (loadVariables sys) (fun _ t s => t.errors = "" ∧ s = sys.ready s₀)
      fun e t => MayEnd sys words s₀ e t.errors := by
  unfold loadVariables
  refine Leads.bind (Q := fun result t s => result = (sys.loadVariables s₀).1 ∧ t.errors = "" ∧ s = sys.ready s₀)
    (leads_onDisk fun t s ⟨hsilent, hs⟩ => ?_) fun result => Leads.assume fun hresult => ?_
  · subst hs
    exact ⟨rfl, hsilent, rfl⟩
  · cases result with
    | ok _ => exact leads_pure fun t s h => h
    | error reason => exact leads_throw fun t s h => .crash _ s (.environment hcall hresult.symm)

theorem leads_runCall (hd : sys.disk.IsSteady) (hzone : ∀ seconds, IsUsual (sys.clock.zone.offsetAt seconds))
    (words : List String) (s₀ : σ) :
    Leads (fun t s => t.errors = "" ∧ s = s₀) (runCall sys words) (fun _ _ _ => True)
      fun e t => MayEnd sys words s₀ e t.errors := by
  unfold runCall
  split
  · exact leads_throw fun t s h => .usage _ s
  · exact leads_modify fun t s h => trivial
  rename_i place name rest hcall
  dsimp only
  refine (leads_isRefused hd fun t s e hs _ he hnull => ?_).bind fun isRefused => ?_
  · exact .crash _ s (.place hcall (hs.2 ▸ he) hnull)
  refine (leads_endIf fun t s _ _ => .usage _ s).bind fun _ => ?_
  refine (leads_loadVariables hcall).bind fun _ => ?_
  refine (leads_loadSettings (fun t s e he h => ?_) (fun t s cause hcause hsilent => ?_) (fun t s hhalf => ?_) hd).bind
    fun settings => Leads.assume fun hsettings => ?_
  · exact .failure s (h ▸ .settings hcall he)
  · exact .crash _ s (.settings hcall hcause (loadLayeredAt_failsWith _ _ _ _ _ hcause)
      (isUnreported_of_isReported hsilent))
  · exact .untold _ (.settings hcall (loadLayeredAt_failsWith _ _ _ _ _ hhalf))
  · split
    · exact leads_throw fun t s h => .usage _ s
    · exact leads_runCommand hd hzone hcall ‹_› hsettings

theorem run_eq (sys : System (StateM σ)) (arguments : List (List UInt8)) (s : σ) :
    run sys arguments s = match wordsOf? arguments with
      | none => (⟨.untold, "", ""⟩, s)
      | some words =>
        let ((result, t), s') := ((runCall sys words).run.run {}).run s
        (⟨match result with | .ok _ => .success | .error ending => ending, t.output, t.errors⟩, s') := by
  unfold run
  cases wordsOf? arguments <;> rfl

end SearchBox.CommandLine

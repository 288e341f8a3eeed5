import SearchBox.CommandLine
import SearchBox.Proofs.Settings.File

/-!
  SearchBox.Proofs.CommandLine.Steps — what the steps of a call lead to. Messages change nothing
  but what the console shows (`leads_tell`). A search that fails says so (`leads_failSearch`),
  and whatever its log asks of the disk is done, or the call crashes (`leads_openLog`).
-/

namespace SearchBox.CommandLine

open SearchBox.Calendar SearchBox.Log

variable {σ α β : Type}

/-- From where `P` holds, a computation comes to a value where `Q` holds of it, or is cut short
    by an ending where `E` holds. -/
def Leads (P : Session → σ → Prop) (x : Run (StateM σ) α) (Q : α → Session → σ → Prop)
    (E : Ending → Session → σ → Prop) : Prop :=
  ∀ t s, P t s →
    match (x.run.run t).run s with
    | ((.ok a, t'), s') => Q a t' s'
    | ((.error e, t'), s') => E e t' s'

section Leads

variable {P P' : Session → σ → Prop} {Q : α → Session → σ → Prop} {R : β → Session → σ → Prop}
  {E : Ending → Session → σ → Prop}

theorem Leads.of {x : Run (StateM σ) α} (h : Leads P x Q E) (hP : ∀ t s, P' t s → P t s) : Leads P' x Q E :=
  fun t s hs => h t s (hP t s hs)

/-- Facts about neither the session nor the disk are kept as assumptions. -/
theorem Leads.assume {φ : Prop} {x : Run (StateM σ) α} (h : φ → Leads P x Q E) :
    Leads (fun t s => φ ∧ P t s) x Q E :=
  fun t s hs => h hs.1 t s hs.2

theorem Leads.bind {x : Run (StateM σ) α} {f : α → Run (StateM σ) β} (hx : Leads P x Q E)
    (hf : ∀ a, Leads (Q a) (f a) R E) : Leads P (x >>= f) R E := by
  intro t s hs
  have hxs := hx t s hs
  revert hxs
  rw [ExceptT.run_bind, StateT.run_bind, StateT.run_bind]
  rcases (x.run.run t).run s with ⟨⟨e | a, t'⟩, s'⟩
  · exact id
  · exact hf a t' s'

theorem leads_pure {a : α} (h : ∀ t s, P t s → Q a t s) : Leads P (pure a) Q E :=
  h

theorem leads_throw {e : Ending} (h : ∀ t s, P t s → E e t s) : Leads P (throw e) Q E :=
  h

theorem leads_get : Leads P get (fun a t s => a = t ∧ P t s) E :=
  fun _ _ hs => ⟨rfl, hs⟩

theorem leads_modify {f : Session → Session} {Q : Unit → Session → σ → Prop} (h : ∀ t s, P t s → Q () (f t) s) :
    Leads P (modify f) Q E :=
  h

theorem leads_onDisk {x : StateM σ α} (h : ∀ t s, P t s → Q (x s).1 t (x s).2) : Leads P (onDisk x) Q E :=
  h

theorem leads_fail {text : String} (h : ∀ t s, P t s → E .failure { t with errors := t.errors ++ text } s) :
    Leads P (fail text) Q E :=
  h

theorem leads_endIf {isCase : Bool} {e : Ending} (h : ∀ t s, P t s → isCase = true → E e t s) :
    Leads P (endIf isCase e) (fun _ => P) E := by
  cases isCase with
  | true => exact leads_throw fun t s hs => h t s hs rfl
  | false => exact leads_pure fun t s hs => hs

end Leads

variable {disk : Disk (StateM σ)} {clock : Clock} {level : Level} {E : Ending → Session → σ → Prop}

/-! ## Messages -/

def Session.hear (clock : Clock) (e : Entry) (t : Session) : Session :=
  { t with errors := t.errors ++ if t.level.number ≤ e.level.number then line clock.wallNow e else "" }

/-- A log file that cannot be written is left as it is. -/
theorem leads_append {I : Session → Prop} (file : Option Disk.Path) (text : String) :
    Leads (fun t _ => I t)
      (match file with
      | some path => do let _ ← onDisk (disk.append path text)
      | none => return) (fun _ t _ => I t) E := by
  split
  · exact (leads_onDisk (Q := fun _ t _ => I t) fun t s h => h).bind fun _ => leads_pure fun t s h => h
  · exact leads_pure fun t s h => h

theorem leads_tell {I : Session → Prop} (e : Entry) :
    Leads (fun t _ => I (t.hear clock e)) (tell disk clock e) (fun _ t _ => I t) E := by
  unfold tell
  refine leads_get.bind fun now => ?_
  dsimp only
  split
  · rename_i hlevel
    refine (leads_modify fun t s ⟨hnow, h⟩ => ?_).bind fun _ => leads_append _ _
    rw [Session.hear, ← hnow, if_pos hlevel] at h
    exact hnow ▸ h
  · rename_i hlevel
    refine (leads_append _ _).of fun t s ⟨hnow, h⟩ => ?_
    rw [Session.hear, ← hnow, if_neg hlevel, String.append_empty] at h
    exact hnow ▸ h

theorem leads_forM_tell (es : List Entry) :
    Leads (fun t (_ : σ) => t.level = level) (es.forM (tell disk clock)) (fun _ t _ => t.level = level) E := by
  induction es with
  | nil => exact leads_pure fun t s h => h
  | cons e es ih => exact (leads_tell (I := fun t => t.level = level) e).bind fun _ => ih

theorem leads_telling {ε : Type} (x : Logged ε α) :
    Leads (fun t (_ : σ) => t.level = level) (telling disk clock x) (fun r t _ => r = (x.run []).1 ∧ t.level = level)
      E := by
  unfold telling
  exact (leads_forM_tell _).bind fun _ => leads_pure fun t s h => ⟨rfl, h⟩

/-! ## Log files -/

def makeLog (disk : Disk (StateM σ)) (path : Disk.Path) : StateM σ (Except DiskError Unit) := do
  match ← disk.makeFolders path.parent with
  | .ok _ => disk.append path ""
  | .error e => return .error e

theorem makeLog_eq (path : Disk.Path) (s : σ) :
    (makeLog disk path s).1 = ((disk.makeFolders path.parent s).1 >>= fun _ =>
      (disk.append path "" (disk.makeFolders path.parent s).2).1) := by
  have hmake : makeLog disk path s = (match (disk.makeFolders path.parent s).1 with
    | .ok _ => disk.append path ""
    | .error e => pure (.error e) : StateM σ (Except DiskError Unit)) (disk.makeFolders path.parent s).2 := rfl
  rw [hmake]
  cases (disk.makeFolders path.parent s).1 <;> rfl

theorem leads_needed {P : Session → σ → Prop} {x : Except DiskError Unit}
    (hE : ∀ t s e, P t s → x = .error e → E (.crash (.logFile e)) t s) :
    Leads P (needed x) (fun _ t s => x = .ok () ∧ P t s) E := by
  cases x with
  | ok u => exact leads_pure fun t s h => ⟨rfl, h⟩
  | error e => exact leads_throw fun t s h => hE t s e h rfl

theorem leads_openLog {settings : Settings} {action : String} {s₀ : σ}
    (hE : ∀ t s e, settings.logToFile = true →
      (makeLog disk (actionPath settings.logFolder action clock.wallNow) s₀).1 = .error e →
      E (.crash (.logFile e)) t s) :
    Leads (fun _ s => s = s₀) (openLog disk clock settings action) (fun _ t _ => t.level = settings.level) E := by
  unfold openLog
  split
  · rename_i hfile
    dsimp only
    generalize actionPath settings.logFolder action clock.wallNow = path at hE ⊢
    refine Leads.bind (Q := fun x _ s => x = (disk.makeFolders path.parent s₀).1 ∧ s = (disk.makeFolders path.parent s₀).2)
      (leads_onDisk fun t s h => h ▸ ⟨rfl, rfl⟩) fun x => ?_
    refine (leads_needed fun t s e hs he => hE t s e hfile ?_).bind fun _ => Leads.assume fun hx => Leads.assume fun hfolder => ?_
    · rw [makeLog_eq, ← hs.1, he]
      rfl
    refine Leads.bind (Q := fun y _ _ => y = (makeLog disk path s₀).1) (leads_onDisk fun t s h => ?_) fun y => ?_
    · rw [makeLog_eq, ← hfolder, hx, h]
      rfl
    refine (leads_needed fun t s e hs he => hE t s e hfile ?_).bind fun _ => ?_
    · exact hs ▸ he
    refine (leads_modify (Q := fun _ t _ => t.level = settings.level) fun t s h => rfl).bind fun _ => ?_
    exact leads_tell (I := fun t => t.level = settings.level) _
  · exact leads_modify fun t s h => rfl

/-! ## Searches -/

/-- What the console says of a search that failed. The reason is a message like others, and not
    shown if only critical ones are. -/
def failedSearch (clock : Clock) (level : Level) (reason : String) : String :=
  (if level.number ≤ Level.error.number then line clock.wallNow ⟨.error, "Search failed: " ++ reason⟩ else "") ++
    "Aborted!\n"

section Search

variable (hE : ∀ t s before reason, t.errors = before ++ failedSearch clock level reason → E .failure t s)

include hE

theorem leads_failSearch {Q : α → Session → σ → Prop} (reason : String) :
    Leads (fun t (_ : σ) => t.level = level) (failSearch disk clock reason) Q E := by
  unfold failSearch
  refine Leads.bind (Q := fun _ t _ => ∃ before, t.errors ++ "Aborted!\n" = before ++ failedSearch clock level reason) ?_
    fun _ => leads_fail fun t s ⟨before, h⟩ => hE _ s before reason h
  refine (leads_tell (I := fun t => ∃ before, t.errors ++ "Aborted!\n" = before ++ failedSearch clock level reason) _).of
    fun t s h => ⟨t.errors, ?_⟩
  rw [failedSearch, ← h, ← String.append_assoc]
  rfl

theorem leads_searchResult {ε : Type} (message : ε → String) (x : Except ε α) :
    Leads (fun t (_ : σ) => t.level = level) (searchResult disk clock message x) (fun _ t _ => t.level = level) E := by
  cases x with
  | ok a => exact leads_pure fun t s h => h
  | error e => exact leads_failSearch hE (message e)

theorem leads_readStore (hd : disk.IsSteady) {path : Disk.Path}
    (hpair : ∀ t s, holdsHalfPair (disk.readText path s).1 = true → E .untold t s) :
    Leads (fun t (_ : σ) => t.level = level) (readStore disk clock path) (fun _ t _ => t.level = level) E := by
  unfold readStore
  refine (leads_tell (I := fun t => t.level = level) _).bind fun _ => ?_
  refine Leads.bind (Q := fun text t s => text = (disk.readText path s).1 ∧ t.level = level)
    (leads_onDisk fun t s h => ⟨by rw [hd.readText], h⟩) fun text => ?_
  refine (leads_endIf (P := fun t s => text = (disk.readText path s).1 ∧ t.level = level) fun t s h hhalf =>
    hpair t s (h.1 ▸ hhalf)).bind fun _ => ?_
  refine ((leads_telling _).of fun t s h => h.2).bind fun items => Leads.assume fun _ => ?_
  exact (leads_searchResult hE _ items).bind fun records => leads_pure fun t s h => h

end Search

end SearchBox.CommandLine

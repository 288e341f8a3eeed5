/-!
  SearchBox.Proofs.Fallible — computations that may fail. One that answers has answered at each
  of its steps (`bind_eq_ok`), also along a list (`exists_of_mem_mapM`), and one that fails has
  failed at one of them, so what is true of the errors of all steps is true of its errors
  (`FailsWith.bind`).
-/

namespace SearchBox

/-! ## Answers -/

@[simp] theorem ok_bind {ε α β : Type} (a : α) (k : α → Except ε β) : (.ok a : Except ε α) >>= k = k a :=
  rfl

theorem bind_eq_ok {ε α β : Type} {x : Except ε α} {k : α → Except ε β} {b : β} :
    x >>= k = .ok b ↔ ∃ a, x = .ok a ∧ k a = .ok b := by
  cases x <;> simp [bind, Except.bind]

theorem exists_of_map_eq_ok {ε α β : Type} {f : α → β} {x : Except ε α} {b : β} (h : x.map f = .ok b) :
    ∃ a, x = .ok a ∧ f a = b := by
  cases x with
  | error e => cases h
  | ok a =>
    cases h
    exact ⟨a, rfl, rfl⟩

@[simp] theorem mapError_ok {ε ε' α : Type} (g : ε → ε') (a : α) : (.ok a : Except ε α).mapError g = .ok a :=
  rfl

@[simp] theorem mapError_error {ε ε' α : Type} (g : ε → ε') (e : ε) :
    (.error e : Except ε α).mapError g = .error (g e) :=
  rfl

theorem mapError_eq_ok {ε ε' α : Type} {e : ε → ε'} {x : Except ε α} {a : α} : x.mapError e = .ok a ↔ x = .ok a := by
  cases x with
  | error e' =>
    constructor
    · intro h
      cases h
    · intro h
      cases h
  | ok a' =>
    constructor
    · intro h
      cases h
      rfl
    · intro h
      cases h
      rfl

theorem mapError_eq_error {ε ε' α : Type} {g : ε → ε'} {x : Except ε α} {e' : ε'} :
    x.mapError g = .error e' ↔ ∃ e, x = .error e ∧ g e = e' := by
  cases x <;> simp

theorem exists_of_isOk {ε α : Type} {x : Except ε α} (h : x.isOk = true) : ∃ a, x = .ok a := by
  cases x with
  | error e => cases h
  | ok a => exact ⟨a, rfl⟩

theorem exists_of_mem_mapM {ε α β : Type} {g : α → Except ε β} {xs : List α} {ys : List β} (h : xs.mapM g = .ok ys)
    {y : β} (hy : y ∈ ys) : ∃ x ∈ xs, g x = .ok y := by
  induction xs generalizing ys with
  | nil =>
    cases h
    cases hy
  | cons x xs ih =>
    rw [List.mapM_cons] at h
    obtain ⟨z, hz, h⟩ := bind_eq_ok.1 h
    obtain ⟨zs, hzs, h⟩ := bind_eq_ok.1 h
    cases h
    rcases List.mem_cons.1 hy with rfl | hy
    · exact ⟨x, List.mem_cons_self, hz⟩
    · obtain ⟨x', hx', hg⟩ := ih hzs hy
      exact ⟨x', List.mem_cons_of_mem _ hx', hg⟩

theorem exists_mapM_iff {ε α β : Type} {g : α → Except ε β} {xs : List α} :
    (∃ ys, xs.mapM g = .ok ys) ↔ ∀ x ∈ xs, ∃ y, g x = .ok y := by
  induction xs with
  | nil => exact ⟨nofun, fun _ => ⟨[], rfl⟩⟩
  | cons x xs ih =>
    rw [List.forall_mem_cons, ← ih]
    constructor
    · rintro ⟨ys, h⟩
      rw [List.mapM_cons] at h
      obtain ⟨y, hy, h⟩ := bind_eq_ok.1 h
      obtain ⟨later, hlater, -⟩ := bind_eq_ok.1 h
      exact ⟨⟨y, hy⟩, later, hlater⟩
    · rintro ⟨⟨y, hy⟩, ys, hys⟩
      exact ⟨y :: ys, by rw [List.mapM_cons, hy, hys]; rfl⟩

theorem mapM_congr {ε α β : Type} {f g : α → Except ε β} {xs : List α} (h : ∀ x ∈ xs, f x = g x) :
    xs.mapM f = xs.mapM g := by
  induction xs with
  | nil => rfl
  | cons x xs ih =>
    obtain ⟨hx, hxs⟩ := List.forall_mem_cons.1 h
    rw [List.mapM_cons, List.mapM_cons, hx, ih hxs]

theorem mapM_eq_ok {ε α β : Type} {g : α → Except ε β} {f : α → β} {xs : List α} (h : ∀ x ∈ xs, g x = .ok (f x)) :
    xs.mapM g = .ok (xs.map f) :=
  (mapM_congr h).trans List.mapM_pure

/-- Answers changed one by one are the list of answers, changed. -/
theorem mapM_eq_map {ε α β γ : Type} {g : α → Except ε β} {g' : α → Except ε γ} {f : β → γ}
    (h : ∀ x, g' x = (g x).map f) (xs : List α) : xs.mapM g' = (xs.mapM g).map (List.map f) := by
  induction xs with
  | nil => rfl
  | cons x xs ih =>
    rw [List.mapM_cons, List.mapM_cons, h, ih]
    cases g x with
    | error e => rfl
    | ok y => cases xs.mapM g <;> rfl

theorem forM_eq_ok {ε α : Type} {g : α → Except ε Unit} {xs : List α} (h : xs.forM g = .ok ()) :
    ∀ x ∈ xs, g x = .ok () := by
  induction xs with
  | nil => exact fun x hx => by cases hx
  | cons x xs ih =>
    obtain ⟨u, hu, h⟩ := bind_eq_ok.1 h
    exact List.forall_mem_cons.2 ⟨hu, ih h⟩

/-! ## Errors -/

/-- All errors of a computation have a property. -/
def FailsWith {ε α : Type} (P : ε → Prop) (x : Except ε α) : Prop :=
  ∀ e, x = .error e → P e

section FailsWith

variable {ε α β : Type} {P Q : ε → Prop}

theorem failsWith_ok (a : α) : FailsWith P (.ok a) :=
  nofun

theorem failsWith_error {e : ε} (h : P e) : FailsWith P (.error e : Except ε α) := by
  intro e' he
  cases he
  exact h

theorem FailsWith.mono {x : Except ε α} (h : FailsWith P x) (hPQ : ∀ e, P e → Q e) : FailsWith Q x :=
  fun e he => hPQ e (h e he)

theorem FailsWith.bind {x : Except ε α} {k : α → Except ε β} (hx : FailsWith P x)
    (hk : ∀ a, x = .ok a → FailsWith P (k a)) : FailsWith P (x >>= k) := by
  intro e he
  cases x with
  | error e' =>
    cases he
    exact hx _ rfl
  | ok a => exact hk a rfl e he

theorem FailsWith.mapError {ε' : Type} {x : Except ε α} {g : ε → ε'} {P : ε' → Prop} (h : ∀ e, x = .error e → P (g e)) :
    FailsWith P (x.mapError g) := by
  intro e' he
  obtain ⟨e, hx, rfl⟩ := mapError_eq_error.1 he
  exact h e hx

theorem FailsWith.map {x : Except ε α} (h : FailsWith P x) (f : α → β) : FailsWith P (f <$> x) := by
  intro e he
  cases x with
  | error e' =>
    cases he
    exact h _ rfl
  | ok a => cases he

theorem FailsWith.mapM {f : α → Except ε β} {xs : List α} (h : ∀ x ∈ xs, FailsWith P (f x)) : FailsWith P (xs.mapM f) := by
  induction xs with
  | nil => exact failsWith_ok []
  | cons x xs ih =>
    obtain ⟨hx, hxs⟩ := List.forall_mem_cons.1 h
    rw [List.mapM_cons]
    exact hx.bind fun y _ => (ih hxs).bind fun ys _ => failsWith_ok _

theorem FailsWith.forM {f : α → Except ε Unit} {xs : List α} (h : ∀ x ∈ xs, FailsWith P (f x)) :
    FailsWith P (xs.forM f) := by
  induction xs with
  | nil => exact failsWith_ok ()
  | cons x xs ih =>
    obtain ⟨hx, hxs⟩ := List.forall_mem_cons.1 h
    exact hx.bind fun _ _ => ih hxs

end FailsWith

end SearchBox

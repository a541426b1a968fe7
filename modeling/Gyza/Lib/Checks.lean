import Mathlib.Tactic

/-! Chains of checks that stop at the first failure.

A chain succeeds exactly when each of its checks does; the rules below turn a
chain of any length into the conjunction of its checks. -/

namespace Gyza.Checks

variable {ε α β : Type}

def demand (holds : Prop) [Decidable holds] (error : ε) : Except ε Unit :=
  if holds then .ok () else .error error

def present (value : Option α) (error : ε) : Except ε α :=
  match value with
  | none => .error error
  | some value => .ok value

def each (check : α → Except ε Unit) : List α → Except ε Unit
  | [] => .ok ()
  | item :: rest =>
      match check item with
      | .error error => .error error
      | .ok () => each check rest

/-- The failure of an inner check, under the outer check's name. -/
def wrap {ε' : Type} (rename : ε → ε') (result : Except ε α) : Except ε' α :=
  match result with
  | .error error => .error (rename error)
  | .ok value => .ok value

@[simp] theorem bind_ok_iff (first : Except ε α) (next : α → Except ε β) (result : β) :
    (first >>= next) = .ok result ↔ ∃ value, first = .ok value ∧ next value = .ok result := by
  cases first with
  | error error => simp [bind, Except.bind]
  | ok value => simp [bind, Except.bind]

@[simp] theorem pure_ok_iff (value result : α) :
    (pure value : Except ε α) = .ok result ↔ value = result := by
  simp [pure, Except.pure]

@[simp] theorem demand_ok_iff (holds : Prop) [Decidable holds] (error : ε) (done : Unit) :
    demand holds error = .ok done ↔ holds := by
  unfold demand
  split_ifs with met
  · simp [met]
  · simp [met]

@[simp] theorem present_ok_iff (value : Option α) (error : ε) (found : α) :
    present value error = .ok found ↔ value = some found := by
  cases value with
  | none => simp [present]
  | some value => simp [present]

@[simp] theorem wrap_ok_iff {ε' : Type} (rename : ε → ε') (result : Except ε α) (value : α) :
    wrap rename result = .ok value ↔ result = .ok value := by
  cases result with
  | error error => simp [wrap]
  | ok other => simp [wrap]

@[simp] theorem each_ok_iff (check : α → Except ε Unit) (items : List α) (done : Unit) :
    each check items = .ok done ↔ ∀ item ∈ items, check item = .ok () := by
  induction items with
  | nil => simp [each]
  | cons item rest ih =>
      cases passed : check item with
      | error error => simp [each, passed]
      | ok done => simp [each, passed, ih]

@[simp] theorem map_ok_iff (f : α → β) (first : Except ε α) (result : β) :
    first.map f = .ok result ↔ ∃ value, first = .ok value ∧ f value = result := by
  cases first with
  | error error => simp [Except.map]
  | ok value => simp [Except.map]

theorem mapM_ok_iff (f : α → Except ε β) (items : List α) (results : List β) :
    items.mapM f = .ok results ↔ List.Forall₂ (fun item result => f item = .ok result) items results := by
  induction items generalizing results with
  | nil =>
      rw [List.mapM_nil, pure_ok_iff, List.forall₂_nil_left_iff]
      exact eq_comm
  | cons item rest ih =>
      simp only [List.mapM_cons, bind_ok_iff, pure_ok_iff, ih]
      constructor
      · rintro ⟨first, done, others, later, rfl⟩
        exact .cons done later
      · intro both
        cases both with
        | cons done later => exact ⟨_, done, _, later, rfl⟩

theorem mapM_map {γ : Type} (f : α → Except ε β) (view : β → γ) (items : List α) :
    items.mapM (fun item => (f item).map view) = (items.mapM f).map (List.map view) := by
  induction items with
  | nil => rfl
  | cons item rest ih =>
      rw [List.mapM_cons, List.mapM_cons, ih]
      cases f item with
      | error error => rfl
      | ok first =>
          cases rest.mapM f with
          | error error => rfl
          | ok others => rfl

theorem mapM_congr {f g : α → Except ε β} {items : List α} (same : ∀ item ∈ items, f item = g item) :
    items.mapM f = items.mapM g := by
  induction items with
  | nil => rfl
  | cons item rest ih =>
      rw [List.forall_mem_cons] at same
      rw [List.mapM_cons, List.mapM_cons, same.1, ih same.2]

/-! Chains read for whether they answer at all. -/

def Answers (result : Except ε α) : Prop := ∃ value, result = .ok value

@[simp] theorem answers_ok (value : α) : Answers (.ok value : Except ε α) := ⟨value, rfl⟩

@[simp] theorem not_answers_error (error : ε) : ¬Answers (.error error : Except ε α) := by
  rintro ⟨value, answered⟩
  cases answered

@[simp] theorem answers_pure (value : α) : Answers (pure value : Except ε α) := ⟨value, rfl⟩

theorem answers_bind (first : Except ε α) (next : α → Except ε β) :
    Answers (first >>= next) ↔ ∃ value, first = .ok value ∧ Answers (next value) := by
  unfold Answers
  simp only [bind_ok_iff]
  constructor
  · rintro ⟨result, value, answered, later⟩
    exact ⟨value, answered, result, later⟩
  · rintro ⟨value, answered, result, later⟩
    exact ⟨result, value, answered, later⟩

/-- A first step whose value the rest does not depend on for answering. -/
theorem answers_bind_of_forall (first : Except ε α) {next : α → Except ε β} {holds : Prop}
    (rest : ∀ value, first = .ok value → (Answers (next value) ↔ holds)) :
    Answers (first >>= next) ↔ Answers first ∧ holds := by
  rw [answers_bind]
  constructor
  · rintro ⟨value, answered, later⟩
    exact ⟨⟨value, answered⟩, (rest value answered).mp later⟩
  · rintro ⟨⟨value, answered⟩, later⟩
    exact ⟨value, answered, (rest value answered).mpr later⟩

@[simp] theorem answers_map (f : α → β) (first : Except ε α) :
    Answers (first.map f) ↔ Answers first := by
  cases first with
  | error error => simp [Except.map]
  | ok value => simp [Except.map]

theorem answers_mapM (f : α → Except ε β) (items : List α) :
    Answers (items.mapM f) ↔ ∀ item ∈ items, Answers (f item) := by
  induction items with
  | nil => simp
  | cons item rest ih =>
      rw [List.mapM_cons, List.forall_mem_cons, ← ih]
      apply answers_bind_of_forall
      intro first _
      rw [answers_bind]
      simp [Answers]

/-- A fold that may fail on each item, whatever it has gathered so far. -/
theorem answers_foldlM {σ : Type} (key : α → Except ε β) (step : σ → β → α → σ) (items : List α)
    (start : σ) :
    Answers (items.foldlM (fun state item => do pure (step state (← key item) item)) start) ↔
      ∀ item ∈ items, Answers (key item) := by
  induction items generalizing start with
  | nil => simp
  | cons item rest ih =>
      rw [List.foldlM_cons, List.forall_mem_cons]
      cases keyed : key item with
      | error error => simp [bind, Except.bind]
      | ok value =>
          simp only [bind, Except.bind, pure, Except.pure] at ih ⊢
          rw [ih]
          simp

/-- What does not succeed fails. -/
theorem failed_iff (result : Except ε α) :
    (∃ error, result = .error error) ↔ ¬∃ value, result = .ok value := by
  cases result with
  | error error => simp
  | ok value => simp

end Gyza.Checks

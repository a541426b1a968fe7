import Mathlib.Tactic

/-! Runs of a deterministic step function.

`Admissible` restricts the steps of a run by a condition on the state before
each step; the rules below carry an invariant, and a relation between an
earlier and a later state, along every such run. -/

namespace Gyza.Run

variable {σ μ : Type}

def run (step : σ → μ → σ) (start : σ) (inputs : List μ) : σ := inputs.foldl step start

def Admissible (step : σ → μ → σ) (allowed : σ → μ → Prop) : σ → List μ → Prop
  | _, [] => True
  | state, input :: rest => allowed state input ∧ Admissible step allowed (step state input) rest

@[simp] theorem run_nil (step : σ → μ → σ) (start : σ) : run step start [] = start := rfl

@[simp] theorem run_cons (step : σ → μ → σ) (start : σ) (input : μ) (rest : List μ) :
    run step start (input :: rest) = run step (step start input) rest := rfl

theorem run_append (step : σ → μ → σ) (start : σ) (front back : List μ) :
    run step start (front ++ back) = run step (run step start front) back := by
  simp only [run, List.foldl_append]

theorem admissible_append (step : σ → μ → σ) (allowed : σ → μ → Prop) (start : σ)
    (front back : List μ) :
    Admissible step allowed start (front ++ back) ↔
      Admissible step allowed start front ∧
        Admissible step allowed (run step start front) back := by
  induction front generalizing start with
  | nil => simp [Admissible]
  | cons input rest ih => simp [Admissible, ih, and_assoc]

/-- A run is admissible when each of its steps is allowed in the state it is taken in. -/
theorem admissible_of_steps (step : σ → μ → σ) (allowed : σ → μ → Prop) (start : σ)
    (inputs : List μ) (steps : ∀ front input rest, inputs = front ++ input :: rest →
      allowed (run step start front) input) : Admissible step allowed start inputs := by
  induction inputs generalizing start with
  | nil => trivial
  | cons input rest ih =>
      constructor
      · exact steps [] input rest rfl
      · apply ih
        intro front next back split
        exact steps (input :: front) next back (by rw [split, List.cons_append])

theorem admissible_iff_steps (step : σ → μ → σ) (allowed : σ → μ → Prop) (start : σ)
    (inputs : List μ) :
    Admissible step allowed start inputs ↔ ∀ front input rest, inputs = front ++ input :: rest →
      allowed (run step start front) input := by
  constructor
  · intro admissible front input rest split
    rw [split, admissible_append] at admissible
    exact admissible.2.1
  · exact admissible_of_steps step allowed start inputs

theorem admissible_and (step : σ → μ → σ) {first second : σ → μ → Prop} (start : σ) (inputs : List μ) :
    Admissible step (fun state input => first state input ∧ second state input) start inputs ↔
      Admissible step first start inputs ∧ Admissible step second start inputs := by
  induction inputs generalizing start with
  | nil => simp [Admissible]
  | cons input rest ih => simp [Admissible, ih, and_assoc, and_left_comm]

theorem admissible_mono (step : σ → μ → σ) {allowed weaker : σ → μ → Prop}
    (implies : ∀ state input, allowed state input → weaker state input) (start : σ)
    (inputs : List μ) (admissible : Admissible step allowed start inputs) :
    Admissible step weaker start inputs := by
  induction inputs generalizing start with
  | nil => trivial
  | cons input rest ih =>
      exact ⟨implies start input admissible.1, ih (step start input) admissible.2⟩

theorem invariant_run (step : σ → μ → σ) (allowed : σ → μ → Prop) (invariant : σ → Prop)
    (preserved : ∀ state input, invariant state → allowed state input →
      invariant (step state input))
    (start : σ) (inputs : List μ) (holds : invariant start)
    (admissible : Admissible step allowed start inputs) :
    invariant (run step start inputs) := by
  induction inputs generalizing start with
  | nil => exact holds
  | cons input rest ih =>
      exact ih (step start input) (preserved start input holds admissible.1) admissible.2

/-- What every step keeps, every run keeps. -/
theorem kept_run (step : σ → μ → σ) (invariant : σ → Prop)
    (kept : ∀ state input, invariant state → invariant (step state input)) (start : σ)
    (inputs : List μ) (holds : invariant start) : invariant (run step start inputs) := by
  induction inputs generalizing start with
  | nil => exact holds
  | cons input rest ih => exact ih (step start input) (kept start input holds)

/-- Where a step is `fine` and keeps the invariant exactly when it is allowed, every
step of a run is and does exactly when the run is admissible. -/
theorem fine_iff_admissible (step : σ → μ → σ) (allowed fine : σ → μ → Prop) (invariant : σ → Prop)
    (exact_step : ∀ state input, invariant state →
      (fine state input ∧ invariant (step state input) ↔ allowed state input))
    (start : σ) (inputs : List μ) (holds : invariant start) :
    (∀ front input back, inputs = front ++ input :: back →
      fine (run step start front) input ∧ invariant (run step start (front ++ [input]))) ↔
      Admissible step allowed start inputs := by
  induction inputs generalizing start with
  | nil =>
      refine ⟨fun _ => trivial, ?_⟩
      intro _ front input back split
      simp at split
  | cons first rest ih =>
      have next := exact_step start first holds
      constructor
      · intro along
        have kept := along [] first rest rfl
        refine ⟨next.mp kept, (ih (step start first) kept.2).mp ?_⟩
        intro front input back split
        exact along (first :: front) input back (by rw [split, List.cons_append])
      · intro admissible front input back split
        cases front with
        | nil =>
            rcases List.cons_eq_cons.mp split with ⟨rfl, rfl⟩
            exact next.mpr admissible.1
        | cons other front =>
            rcases List.cons_eq_cons.mp split with ⟨rfl, tail⟩
            exact (ih (step start first) (next.mpr admissible.1).2).mpr admissible.2 front input
              back tail

/-- The same for the invariant alone, in every state of the run. -/
theorem invariant_iff_admissible (step : σ → μ → σ) (allowed : σ → μ → Prop)
    (invariant : σ → Prop)
    (exact_step : ∀ state input, invariant state →
      (invariant (step state input) ↔ allowed state input))
    (start : σ) (inputs : List μ) (holds : invariant start) :
    (∀ front back, inputs = front ++ back → invariant (run step start front)) ↔
      Admissible step allowed start inputs := by
  rw [← fine_iff_admissible step allowed (fun _ _ => True) invariant
    (fun state input kept => (iff_of_eq (true_and _)).trans (exact_step state input kept)) start inputs holds]
  constructor
  · intro along front input back split
    exact ⟨trivial, along (front ++ [input]) back (by simp [split])⟩
  · intro along front back split
    rcases front.eq_nil_or_concat with rfl | ⟨init, last, rfl⟩
    · exact holds
    · rw [List.concat_eq_append] at split ⊢
      exact (along init last back (by simp [split])).2

/-- Where allowed steps keep an invariant, and under it a step is `fine` exactly when it
is allowed, every step of a run is fine exactly when the run is admissible. -/
theorem all_fine_iff_admissible (step : σ → μ → σ) (allowed fine : σ → μ → Prop)
    (invariant : σ → Prop)
    (exact_step : ∀ state input, invariant state → (fine state input ↔ allowed state input))
    (kept : ∀ state input, invariant state → allowed state input → invariant (step state input))
    (start : σ) (inputs : List μ) (holds : invariant start) :
    (∀ front input back, inputs = front ++ input :: back →
      fine (run step start front) input) ↔ Admissible step allowed start inputs := by
  induction inputs generalizing start with
  | nil =>
      refine ⟨fun _ => trivial, ?_⟩
      intro _ front input back split
      simp at split
  | cons first rest ih =>
      constructor
      · intro along
        have now := (exact_step start first holds).mp (along [] first rest rfl)
        refine ⟨now, (ih (step start first) (kept start first holds now)).mp ?_⟩
        intro front input back split
        exact along (first :: front) input back (by rw [split, List.cons_append])
      · rintro ⟨now, later⟩ front input back split
        cases front with
        | nil =>
            rcases List.cons_eq_cons.mp split with ⟨rfl, rfl⟩
            exact (exact_step start first holds).mpr now
        | cons other front =>
            rcases List.cons_eq_cons.mp split with ⟨rfl, tail⟩
            exact (ih (step start first) (kept start first holds now)).mpr later front input back
              tail

/-- The same for a property of the state a step leads to. -/
theorem property_iff_admissible (step : σ → μ → σ) (allowed : σ → μ → Prop)
    (property invariant : σ → Prop)
    (exact_step : ∀ state input, invariant state →
      (property (step state input) ↔ allowed state input))
    (kept : ∀ state input, invariant state → allowed state input → invariant (step state input))
    (start : σ) (inputs : List μ) (holds : invariant start) :
    (∀ front input back, inputs = front ++ input :: back →
      property (run step start (front ++ [input]))) ↔ Admissible step allowed start inputs := by
  rw [← all_fine_iff_admissible step allowed (fun state input => property (step state input))
    invariant exact_step kept start inputs holds]
  simp only [run_append, run_cons, run_nil]

/-- A reflexive and transitive relation kept by every step links both ends of a run. -/
theorem related_run (step : σ → μ → σ) (allowed : σ → μ → Prop) (invariant : σ → Prop)
    (related : σ → σ → Prop) (refl : ∀ state, related state state)
    (trans : ∀ first second third, related first second → related second third →
      related first third)
    (preserved : ∀ state input, invariant state → allowed state input →
      invariant (step state input) ∧ related state (step state input))
    (start : σ) (inputs : List μ) (holds : invariant start)
    (admissible : Admissible step allowed start inputs) :
    related start (run step start inputs) := by
  induction inputs generalizing start with
  | nil => exact refl start
  | cons input rest ih =>
      rcases preserved start input holds admissible.1 with ⟨next, first⟩
      exact trans start (step start input) _ first (ih (step start input) next admissible.2)

/-! A loop that stops at the first error and keeps what it has done until then. -/

section UntilError

variable {ε : Type}

def untilError (step : σ → μ → Except ε σ) : σ → List μ → σ × Option ε
  | state, [] => (state, none)
  | state, input :: rest =>
      match step state input with
      | .ok next => untilError step next rest
      | .error error => (state, some error)

theorem untilError_cons_ok (step : σ → μ → Except ε σ) {state next : σ} {input : μ} (rest : List μ)
    (ok : step state input = .ok next) :
    untilError step state (input :: rest) = untilError step next rest := by
  simp only [untilError, ok]

theorem untilError_cons_error (step : σ → μ → Except ε σ) {state : σ} {input : μ} {error : ε}
    (rest : List μ) (raised : step state input = .error error) :
    untilError step state (input :: rest) = (state, some error) := by
  simp only [untilError, raised]

theorem untilError_single (step : σ → μ → Except ε σ) (state : σ) (input : μ) :
    (untilError step state [input]).1 = (step state input).toOption.getD state := by
  cases result : step state input with
  | ok next => simp [untilError, result, Except.toOption]
  | error error => simp [untilError, result, Except.toOption]

theorem untilError_invariant (step : σ → μ → Except ε σ) (invariant : σ → Prop) (inputs : List μ)
    (preserved : ∀ state next, ∀ input ∈ inputs, invariant state → step state input = .ok next →
      invariant next) (state : σ) (holds : invariant state) :
    invariant (untilError step state inputs).1 := by
  induction inputs generalizing state with
  | nil => exact holds
  | cons input rest ih =>
      cases result : step state input with
      | ok next =>
          rw [untilError_cons_ok step rest result]
          apply ih
          · intro before after other member
            exact preserved before after other (List.mem_cons_of_mem _ member)
          · exact preserved state next input List.mem_cons_self holds result
      | error error =>
          rw [untilError_cons_error step rest result]
          exact holds

/-- Every step of the loop that is reached is allowed in the state it is taken in. -/
def AllowedUntil (step : σ → μ → Except ε σ) (allowed : σ → μ → Prop) : σ → List μ → Prop
  | _, [] => True
  | state, input :: rest =>
      allowed state input ∧ ∀ next, step state input = .ok next → AllowedUntil step allowed next rest

theorem untilError_allowed (step : σ → μ → Except ε σ) (allowed : σ → μ → Prop)
    (invariant : σ → Prop)
    (preserved : ∀ state next input, invariant state → allowed state input →
      step state input = .ok next → invariant next)
    (inputs : List μ) (state : σ) (holds : invariant state)
    (reached : AllowedUntil step allowed state inputs) :
    invariant (untilError step state inputs).1 := by
  induction inputs generalizing state with
  | nil => exact holds
  | cons input rest ih =>
      cases result : step state input with
      | ok next =>
          rw [untilError_cons_ok step rest result]
          exact ih next (preserved state next input holds reached.1 result) (reached.2 next result)
      | error error =>
          rw [untilError_cons_error step rest result]
          exact holds

end UntilError

end Gyza.Run

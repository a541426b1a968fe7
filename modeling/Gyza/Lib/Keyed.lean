import Mathlib.Tactic

/-! Folds whose steps each concern one key.

A step addressed to a key changes only what is seen under that key, so what is
seen under a key at the end is a fold over the inputs of that key alone. -/

namespace Gyza.Keyed

variable {σ μ κ ω : Type} [DecidableEq κ]

def inputsOf (key : μ → κ) (inputs : List μ) (k : κ) : List μ :=
  inputs.filter (fun input => key input = k)

/-- The inputs of one key in another order, ahead of all the others. -/
def regroup (key : μ → κ) (inputs : List μ) (k : κ) (group : List μ) : List μ :=
  group ++ inputs.filter (fun input => key input ≠ k)

theorem mem_inputsOf (key : μ → κ) (inputs : List μ) (k : κ) (input : μ) :
    input ∈ inputsOf key inputs k ↔ input ∈ inputs ∧ key input = k := by
  simp [inputsOf]

theorem inputsOf_perm (key : μ → κ) {inputs reordered : List μ} (perm : reordered.Perm inputs)
    (k : κ) : (inputsOf key reordered k).Perm (inputsOf key inputs k) := perm.filter _

theorem view_foldl (key : μ → κ) (step : σ → μ → σ) (view : σ → κ → ω) (resolve : ω → μ → ω)
    (view_step : ∀ state input k, view (step state input) k =
      if key input = k then resolve (view state k) input else view state k)
    (inputs : List μ) (state : σ) (k : κ) :
    view (inputs.foldl step state) k = (inputsOf key inputs k).foldl resolve (view state k) := by
  induction inputs generalizing state with
  | nil => rfl
  | cons input rest ih =>
      rw [List.foldl_cons, ih, view_step]
      by_cases same : key input = k
      · simp [inputsOf, same]
      · simp [inputsOf, same]

theorem regroup_perm (key : μ → κ) (inputs : List μ) (k : κ) (group : List μ)
    (perm : group.Perm (inputsOf key inputs k)) : (regroup key inputs k group).Perm inputs := by
  have split := List.filter_append_perm (fun input => decide (key input = k)) inputs
  simp only [← decide_not] at split
  exact (perm.append_right _).trans split

theorem inputsOf_regroup_self (key : μ → κ) (inputs : List μ) (k : κ) (group : List μ)
    (perm : group.Perm (inputsOf key inputs k)) :
    inputsOf key (regroup key inputs k group) k = group := by
  have kept : ∀ input ∈ group, decide (key input = k) = true := by
    intro input member
    simpa using ((mem_inputsOf key inputs k input).mp (perm.subset member)).2
  simp only [inputsOf, regroup, List.filter_append, List.filter_eq_self.mpr kept, List.filter_filter]
  simp

theorem inputsOf_regroup_other (key : μ → κ) (inputs : List μ) (k : κ) (group : List μ)
    (perm : group.Perm (inputsOf key inputs k)) (other : κ) (apart : other ≠ k) :
    inputsOf key (regroup key inputs k group) other = inputsOf key inputs other := by
  have dropped : group.filter (fun input => key input = other) = [] := by
    rw [List.filter_eq_nil_iff]
    intro input member
    have keyed := ((mem_inputsOf key inputs k input).mp (perm.subset member)).2
    simpa [keyed] using Ne.symm apart
  simp only [inputsOf, regroup, List.filter_append, dropped, List.filter_filter, List.nil_append]
  apply List.filter_congr
  intro input _
  by_cases keyed : key input = other
  · simp [keyed, apart]
  · simp [keyed]

end Gyza.Keyed

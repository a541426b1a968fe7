import Gyza.Lib.Run
import Mathlib.Logic.Relation

/-! Logical clocks and the order of causes.

Every node has a clock. An event draws a tuple from a clock or merges a tuple drawn
before into one; it happens before what follows at its node and before every merge
of its tuple. Where each step advances the clock it touches, past the tuple it
merges too, the tuples follow that order. -/

namespace Gyza.Causality

variable {ι σ μ τ ρ : Type}

/-- A clock with tuples `μ`, ranked in `τ`, that reads physical times in `ρ`. -/
structure Clock (σ μ τ ρ : Type) where
  snapshot : σ → μ
  rank : μ → τ
  now : ρ → σ → μ × σ
  recv : ρ → μ → σ → σ
  returned : ∀ reading state, (now reading state).1 = snapshot (now reading state).2

/-- `source` is the position of the event whose tuple was merged; `none` for a drawn tuple. -/
structure Event (ι μ : Type) where
  node : ι
  tuple : μ
  source : Option Nat

structure System (ι σ μ : Type) where
  clocks : ι → σ
  events : List (Event ι μ) := []

inductive Act (ι ρ : Type) where
  | now (node : ι) (reading : ρ)
  | recv (node : ι) (reading : ρ) (source : Nat)

/-- One event leads to another: at one node, or through the tuple it carries. -/
def Edge (events : List (Event ι μ)) (earlier later : Nat) : Prop :=
  ∃ first second, events[earlier]? = some first ∧ events[later]? = some second ∧
    ((earlier < later ∧ first.node = second.node) ∨ second.source = some earlier)

def HappensBefore (events : List (Event ι μ)) : Nat → Nat → Prop :=
  Relation.TransGen (Edge events)

section Order

variable (clock : Clock σ μ τ ρ) [Preorder τ]

/-- The step moves its clock forward, and past the tuple it merges. -/
def Advances (system : System ι σ μ) : Act ι ρ → Prop
  | .now node reading =>
      clock.rank (clock.snapshot (system.clocks node)) <
        clock.rank (clock.now reading (system.clocks node)).1
  | .recv node reading source =>
      ∀ event, system.events[source]? = some event → event.source = none →
        let merged := clock.rank
          (clock.snapshot (clock.recv reading event.tuple (system.clocks node)))
        clock.rank (clock.snapshot (system.clocks node)) < merged ∧ clock.rank event.tuple < merged

/-- Tuples follow the order of causes; so do the tuples drawn from one clock. -/
structure Causal (events : List (Event ι μ)) : Prop where
  ordered : ∀ (earlier later : Nat) (first second : Event ι μ), HappensBefore events earlier later →
    events[earlier]? = some first → events[later]? = some second →
      clock.rank first.tuple < clock.rank second.tuple
  drawn : ∀ (earlier later : Nat) (first second : Event ι μ), earlier < later →
    events[earlier]? = some first → events[later]? = some second → first.node = second.node →
      first.source = none → second.source = none → clock.rank first.tuple < clock.rank second.tuple

/-- What every step that advances keeps. -/
structure Ordered (system : System ι σ μ) : Prop where
  current : ∀ event ∈ system.events,
    clock.rank event.tuple ≤ clock.rank (clock.snapshot (system.clocks event.node))
  sources : ∀ (position : Nat) event, system.events[position]? = some event →
    ∀ source, event.source = some source → source < position
  edges : ∀ (earlier later : Nat) first second, system.events[earlier]? = some first →
    system.events[later]? = some second →
      ((earlier < later ∧ first.node = second.node) ∨ second.source = some earlier) →
        clock.rank first.tuple < clock.rank second.tuple

variable {clock}

/-- Along a chain of causes the tuples grow. -/
theorem Ordered.happensBefore_lt {system : System ι σ μ} (ordered : Ordered clock system)
    {earlier later : Nat} (before : HappensBefore system.events earlier later) :
    ∀ first second, system.events[earlier]? = some first → system.events[later]? = some second →
      clock.rank first.tuple < clock.rank second.tuple := by
  induction before with
  | single edge =>
      rcases edge with ⟨cause, effect, readCause, readEffect, related⟩
      intro first second readFirst readSecond
      rw [readCause] at readFirst
      rw [readEffect] at readSecond
      cases readFirst
      cases readSecond
      exact ordered.edges _ _ cause effect readCause readEffect related
  | tail _ edge ih =>
      rcases edge with ⟨cause, effect, readCause, readEffect, related⟩
      intro first second readFirst readSecond
      rw [readEffect] at readSecond
      cases readSecond
      calc
        clock.rank first.tuple < clock.rank cause.tuple := ih first cause readFirst readCause
        _ < clock.rank effect.tuple := ordered.edges _ _ cause effect readCause readEffect related

end Order

/-- The entries of a list after one more is added at its end. -/
theorem getElem?_concat_cases {events : List (Event ι μ)} {added found : Event ι μ} {position : Nat}
    (read : (events ++ [added])[position]? = some found) :
    events[position]? = some found ∨ position = events.length ∧ found = added := by
  rw [List.getElem?_append] at read
  split_ifs at read with inside
  · exact Or.inl read
  · have place : position - events.length = 0 := by
      by_contra beyond
      rw [List.getElem?_eq_none (by simp only [List.length_singleton]; omega)] at read
      cases read
    rw [place] at read
    cases read
    exact Or.inr ⟨by omega, rfl⟩

section Steps

variable [DecidableEq ι]

def System.record (system : System ι σ μ) (event : Event ι μ) (state : σ) : System ι σ μ :=
  ⟨Function.update system.clocks event.node state, system.events ++ [event]⟩

variable (clock : Clock σ μ τ ρ)

/-- Only drawn tuples travel; a `recv` of anything else does not happen. -/
def step (system : System ι σ μ) : Act ι ρ → System ι σ μ
  | .now node reading =>
      let drawn := clock.now reading (system.clocks node)
      system.record ⟨node, drawn.1, none⟩ drawn.2
  | .recv node reading source =>
      match system.events[source]? with
      | some ⟨_, tuple, none⟩ =>
          let merged := clock.recv reading tuple (system.clocks node)
          system.record ⟨node, clock.snapshot merged, some source⟩ merged
      | _ => system

variable {clock} [Preorder τ]

/-- A new event past its clock, and past its source, keeps the order. -/
theorem Ordered.record {system : System ι σ μ} {added : Event ι μ} {state : σ}
    (ordered : Ordered clock system) (shown : added.tuple = clock.snapshot state)
    (forward : clock.rank (clock.snapshot (system.clocks added.node)) < clock.rank added.tuple)
    (past : ∀ place, added.source = some place → ∃ event, system.events[place]? = some event ∧
      clock.rank event.tuple < clock.rank added.tuple) :
    Ordered clock (system.record added state) := by
  constructor
  · intro event member
    simp only [System.record]
    by_cases here : event.node = added.node
    · rw [here, Function.update_self, ← shown]
      rcases List.mem_append.mp member with before | new
      · exact (here ▸ ordered.current event before).trans forward.le
      · rw [List.mem_singleton.mp new]
    · rw [Function.update_of_ne here]
      rcases List.mem_append.mp member with before | new
      · exact ordered.current event before
      · exact absurd (congrArg Event.node (List.mem_singleton.mp new)) here
  · intro position event read place comesFrom
    rcases getElem?_concat_cases read with before | ⟨rfl, rfl⟩
    · exact ordered.sources position event before place comesFrom
    · rcases past place comesFrom with ⟨origin, found, _⟩
      exact (List.getElem?_eq_some_iff.mp found).1
  · intro earlier later first second readFirst readSecond related
    rcases getElem?_concat_cases readSecond with oldSecond | ⟨rfl, rfl⟩
    · have bound : later < system.events.length := (List.getElem?_eq_some_iff.mp oldSecond).1
      -- An edge into an old event starts at an old one.
      have older : earlier < later := by
        rcases related with ⟨less, _⟩ | comesFrom
        · exact less
        · exact ordered.sources later second oldSecond earlier comesFrom
      rcases getElem?_concat_cases readFirst with oldFirst | ⟨rfl, rfl⟩
      · exact ordered.edges earlier later first second oldFirst oldSecond related
      · omega
    · rcases related with ⟨less, here⟩ | comesFrom
      · rcases getElem?_concat_cases readFirst with oldFirst | ⟨rfl, rfl⟩
        · exact lt_of_le_of_lt (here ▸ ordered.current first (List.mem_of_getElem? oldFirst)) forward
        · omega
      · rcases past earlier comesFrom with ⟨event, found, below⟩
        have bound : earlier < system.events.length := (List.getElem?_eq_some_iff.mp found).1
        rcases getElem?_concat_cases readFirst with oldFirst | ⟨rfl, rfl⟩
        · rw [oldFirst] at found
          cases found
          exact below
        · omega

theorem ordered_step (system : System ι σ μ) (act : Act ι ρ) (ordered : Ordered clock system)
    (advances : Advances clock system act) : Ordered clock (step clock system act) := by
  cases act with
  | now node reading =>
      refine ordered.record (clock.returned reading (system.clocks node)) advances ?_
      intro place drawn
      cases drawn
  | recv node reading source =>
      unfold step
      simp only
      split
      · rename_i sender tuple found
        rcases advances _ found rfl with ⟨forward, past⟩
        refine ordered.record rfl forward ?_
        intro place same
        cases same
        exact ⟨_, found, past⟩
      · exact ordered

theorem ordered_run (clocks : ι → σ) (acts : List (Act ι ρ))
    (advances : Run.Admissible (step clock) (Advances clock) ⟨clocks, []⟩ acts) :
    Ordered clock (Run.run (step clock) ⟨clocks, []⟩ acts) := by
  apply Run.invariant_run (step clock) (Advances clock) (Ordered clock) ordered_step _ acts _ advances
  exact ⟨by simp, by simp, by simp⟩

/-- Runs whose steps all advance are causal. -/
theorem causal_run (clocks : ι → σ) (acts : List (Act ι ρ))
    (advances : Run.Admissible (step clock) (Advances clock) ⟨clocks, []⟩ acts) :
    Causal clock (Run.run (step clock) ⟨clocks, []⟩ acts).events := by
  have ordered := ordered_run clocks acts advances
  constructor
  · intro earlier later first second before readFirst readSecond
    exact ordered.happensBefore_lt before first second readFirst readSecond
  · intro earlier later first second less readFirst readSecond here _ _
    exact ordered.edges earlier later first second readFirst readSecond (Or.inl ⟨less, here⟩)

end Steps

end Gyza.Causality

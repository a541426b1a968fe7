import Gyza.Lib.Run

/-! Replicas of a deterministic state machine that apply one log.

Every replica applies the log in order at its own pace and keeps what each
entry returned. Between entries a replica may also change its own copy; a run
in which these local changes do nothing keeps every replica at the state its
prefix of the log determines. -/

namespace Gyza.Replication

open Run (run Admissible)

variable {σ ε ρ ι α : Type}

/-- `apply` handles a log entry on one copy; `local_` is a change outside the log. -/
structure Machine (σ ε ρ α : Type) where
  apply : σ → ε → ρ × σ
  local_ : σ → α → σ

structure Replica (σ ρ : Type) where
  applied : Nat
  state : σ
  results : List ρ

inductive Step (ι α : Type) where
  | apply (replica : ι)
  | local_ (replica : ι) (change : α)

variable (machine : Machine σ ε ρ α)

def Replica.applyEntry (replica : Replica σ ρ) (entry : ε) : Replica σ ρ :=
  let outcome := machine.apply replica.state entry
  ⟨replica.applied + 1, outcome.2, replica.results ++ [outcome.1]⟩

/-- What a prefix of the log leaves and returns. -/
def replayLog (start : σ) (entries : List ε) : Replica σ ρ :=
  entries.foldl (Replica.applyEntry machine) ⟨0, start, []⟩

def initial (start : σ) : ι → Replica σ ρ := fun _ => ⟨0, start, []⟩

def step [DecidableEq ι] (log : List ε) (cluster : ι → Replica σ ρ) : Step ι α → ι → Replica σ ρ
  | .apply replica =>
      match log[(cluster replica).applied]? with
      | none => cluster
      | some entry => Function.update cluster replica ((cluster replica).applyEntry machine entry)
  | .local_ replica change =>
      Function.update cluster replica
        { cluster replica with state := machine.local_ (cluster replica).state change }

/-- Local changes do nothing. -/
def Inert (cluster : ι → Replica σ ρ) : Step ι α → Prop
  | .apply _ => True
  | .local_ replica change =>
      machine.local_ (cluster replica).state change = (cluster replica).state

/-- Every replica is what its prefix of the log makes it. -/
def Synced (start : σ) (log : List ε) (cluster : ι → Replica σ ρ) : Prop :=
  ∀ replica, (cluster replica).applied ≤ log.length ∧
    cluster replica = replayLog machine start (log.take (cluster replica).applied)

theorem replayLog_append (start : σ) (entries : List ε) (entry : ε) :
    replayLog machine start (entries ++ [entry]) =
      (replayLog machine start entries).applyEntry machine entry := by
  rw [replayLog, List.foldl_append, replayLog]
  rfl

theorem synced_initial (start : σ) (log : List ε) :
    Synced machine start log (initial start : ι → Replica σ ρ) := by
  intro replica
  exact ⟨Nat.zero_le _, rfl⟩

theorem synced_step [DecidableEq ι] (start : σ) (log : List ε) (cluster : ι → Replica σ ρ) (next : Step ι α)
    (synced : Synced machine start log cluster) (inert : Inert machine cluster next) :
    Synced machine start log (step machine log cluster next) := by
  cases next with
  | apply replica =>
      cases entry : log[(cluster replica).applied]? with
      | none =>
          simp only [step, entry]
          exact synced
      | some value =>
          simp only [step, entry]
          intro other
          by_cases same : other = replica
          · subst same
            rcases List.getElem?_eq_some_iff.mp entry with ⟨bound, found⟩
            rw [Function.update_self]
            refine ⟨bound, ?_⟩
            change _ = replayLog machine start (log.take ((cluster other).applied + 1))
            rw [List.take_add_one, entry, Option.toList_some, replayLog_append, ← (synced other).2]
          · rw [Function.update_of_ne same]
            exact synced other
  | local_ replica change =>
      have unchanged : step machine log cluster (.local_ replica change) = cluster := by
        funext other
        simp only [step]
        by_cases same : other = replica
        · subst same
          rw [Function.update_self]
          exact congrArg (fun state => { cluster other with state := state }) inert
        · rw [Function.update_of_ne same]
      rw [unchanged]
      exact synced

theorem synced_run [DecidableEq ι] (start : σ) (log : List ε) (steps : List (Step ι α))
    (admissible : Admissible (step machine log) (Inert machine) (initial start) steps) :
    Synced machine start log (run (step machine log) (initial start) steps) :=
  Run.invariant_run (step machine log) (Inert machine) (Synced machine start log)
    (fun cluster next => synced_step machine start log cluster next) (initial start) steps
    (synced_initial machine start log) admissible

variable {machine} {start : σ} {log : List ε} {cluster : ι → Replica σ ρ}

theorem Synced.eq_of_applied (synced : Synced machine start log cluster) {first second : ι}
    (same : (cluster first).applied = (cluster second).applied) : cluster first = cluster second := by
  rw [(synced first).2, (synced second).2, same]

theorem applyEntry_results (replica : Replica σ ρ) (entries : List ε) :
    ∃ later, (entries.foldl (Replica.applyEntry machine) replica).results = replica.results ++ later := by
  induction entries generalizing replica with
  | nil => exact ⟨[], (List.append_nil _).symm⟩
  | cons entry rest ih =>
      rcases ih (replica.applyEntry machine entry) with ⟨later, same⟩
      exact ⟨[(machine.apply replica.state entry).1] ++ later, by
        rw [List.foldl_cons, same, Replica.applyEntry, List.append_assoc]⟩

/-- A replica that has applied more of the log continues the one that has applied less. -/
theorem Synced.continues (synced : Synced machine start log cluster) {behind ahead : ι}
    (order : (cluster behind).applied ≤ (cluster ahead).applied) :
    ∃ entries : List ε, cluster ahead = entries.foldl (Replica.applyEntry machine) (cluster behind) := by
  rcases List.take_prefix_take_left order with ⟨entries, split⟩
  have reached : replayLog machine start (log.take (cluster behind).applied) = cluster behind :=
    (synced behind).2.symm
  refine ⟨entries, ?_⟩
  rw [(synced ahead).2, ← split, replayLog, List.foldl_append]
  exact congrArg (fun replica => entries.foldl (Replica.applyEntry machine) replica) reached

theorem results_length (entries : List ε) (replica : Replica σ ρ)
    (counted : replica.results.length = replica.applied) :
    (entries.foldl (Replica.applyEntry machine) replica).results.length =
      (entries.foldl (Replica.applyEntry machine) replica).applied := by
  induction entries generalizing replica with
  | nil => exact counted
  | cons entry rest ih =>
      apply ih
      simp [Replica.applyEntry, counted]

theorem Synced.results_counted (synced : Synced machine start log cluster) (replica : ι) :
    (cluster replica).results.length = (cluster replica).applied := by
  rw [(synced replica).2]
  exact results_length _ _ rfl

theorem Synced.result_of_behind (synced : Synced machine start log cluster) {behind ahead : ι}
    (order : (cluster behind).applied ≤ (cluster ahead).applied) {place : Nat}
    (reached : place < (cluster behind).applied) :
    (cluster ahead).results[place]? = (cluster behind).results[place]? := by
  rcases synced.continues order with ⟨entries, same⟩
  rcases applyEntry_results (cluster behind) entries with ⟨later, extended⟩
  rw [same, extended, List.getElem?_append_left]
  rw [synced.results_counted]
  exact reached

/-- An entry returns the same on every replica that has applied it. -/
theorem Synced.result_eq (synced : Synced machine start log cluster) {first second : ι} {place : Nat}
    (firstReached : place < (cluster first).applied)
    (secondReached : place < (cluster second).applied) :
    (cluster first).results[place]? = (cluster second).results[place]? := by
  rcases le_total (cluster first).applied (cluster second).applied with order | order
  · exact (synced.result_of_behind order firstReached).symm
  · exact synced.result_of_behind order secondReached

end Gyza.Replication

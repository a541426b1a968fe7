import Gyza.Lib.Run
import Gyza.Lib.SlidingWindow

/-! The crash-loop ceiling: `RunnerProcessSupervisor` of `gyza/supervisor.py`.

One thread visits the children in turn. What it reads of a child and of the clock is given; it
decides whether the child is left alone, started again or given up on. -/

namespace Gyza.CrashLoop

open SlidingWindow (Within Bursts)

/-- The parameters of the supervisor, in nanoseconds. -/
structure Config where
  maxRestarts : Nat := 5
  restartWindowNs : Int := 300 * 10 ^ 9
  stallTimeoutNs : Int := 900 * 10 ^ 9

/-- `_Child`; `proc` tells whether there is a process. -/
structure Child where
  proc : Bool := false
  restarts : Nat := 0
  lastStartNs : Int := 0
  gaveUp : Bool := false
  lastExit : Option Int := none
  lastProgressNs : Int := 0
  completions : Nat := 0
  stallRestarts : Nat := 0
  sawAttempt : Bool := false

/-- What one visit reads, in the order of reading. A clock that is not read repeats the
reading before it. -/
structure Visit where
  isAlive : Bool
  checkNs : Int
  /-- `_completions_since`, which may be unanswerable. -/
  done : Option Nat
  holdsAClaim : Option Bool
  /-- The clock after a stalled process was ended. -/
  progressNs : Int
  exitcode : Option Int
  nowNs : Int
  /-- When the new process starts. -/
  spawnedNs : Int
  startNs : Int

/-- What a visit did; for a restart, whether it was for a stall, and when. -/
inductive Event where
  | completed (done : Nat)
  | restarted (stalled : Bool) (spawnedNs : Int)
  | gaveUp

def spawn (c : Child) (startNs : Int) : Child := { c with proc := true, lastStartNs := startNs }

/-- `start`, for a child that was never started. -/
def start (nowNs startNs : Int) : Child := spawn { lastProgressNs := nowNs } startNs

section Loop

variable (config : Config)

/-- `_check_progress`. -/
def checkProgress (c : Child) (v : Visit) : Child × Bool :=
  match v.done with
  | none => (c, false)
  | some done =>
      if 0 < done then
        ({ c with completions := c.completions + done, lastProgressNs := v.checkNs }, false)
      else
        let c := if v.holdsAClaim = some true then { c with sawAttempt := true } else c
        if v.checkNs - c.lastProgressNs < config.stallTimeoutNs then (c, false)
        else if c.sawAttempt = false then ({ c with lastProgressNs := v.checkNs }, false)
        else ({ c with sawAttempt := false }, true)

/-- A fresh budget for a child that was started longer ago than the window. -/
def freshBudget (c : Child) (nowNs : Int) : Child :=
  if config.restartWindowNs < nowNs - c.lastStartNs then { c with restarts := 0 } else c

/-- From the exit code on. -/
def handleExit (stalled : Bool) (c : Child) (v : Visit) : Child × Option Event :=
  let c := { c with lastExit := v.exitcode }
  if v.exitcode = some 0 then ({ c with gaveUp := true }, some .gaveUp)
  else
    let c := freshBudget config c v.nowNs
    if config.maxRestarts ≤ c.restarts then ({ c with gaveUp := true }, some .gaveUp)
    else
      (spawn { c with restarts := c.restarts + 1 } v.startNs,
        some (.restarted stalled v.spawnedNs))

/-- What a positive count of completions is recorded as. -/
def completedEvent (v : Visit) : Option Event :=
  v.done.bind fun done => if 0 < done then some (.completed done) else none

/-- The body of `_watch_loop`. -/
def visit (c : Child) (v : Visit) : Child × Option Event :=
  if c.gaveUp = true ∨ c.proc = false then (c, none)
  else if v.isAlive = true then
    let (c, restart) := checkProgress config c v
    if restart = false then (c, completedEvent v)
    else
      handleExit config true { c with
        stallRestarts := c.stallRestarts + 1
        lastProgressNs := v.progressNs
        sawAttempt := false } v
  else handleExit config false c v

/-- A child with what was done about it, the latest first. -/
structure Watched where
  child : Child
  history : List Event := []

def Watched.visit (watched : Watched) (v : Visit) : Watched where
  child := (CrashLoop.visit config watched.child v).1
  history := (CrashLoop.visit config watched.child v).2.toList ++ watched.history

structure Supervisor where
  children : List Watched
  /-- The latest reading of the clock. -/
  clockNs : Int

/-- The thread comes to a child of the roster. -/
def Supervisor.watch (supervisor : Supervisor) (input : Nat × Visit) : Supervisor where
  children := supervisor.children.modify input.1 (Watched.visit config · input.2)
  clockNs := input.2.startNs

end Loop

/-- The supervisor after `start`, with the reading for each process it started. -/
def started (nowNs : Int) (startsNs : List Int) : Supervisor where
  children := startsNs.map fun startNs => { child := start nowNs startNs }
  clockNs := startsNs.getLastD nowNs

/-- The child is running and is found to make no progress. -/
structure Stalls (config : Config) (c : Child) (v : Visit) : Prop where
  watched : c.gaveUp = false
  started : c.proc = true
  alive : v.isAlive = true
  stuck : (checkProgress config c v).2 = true

def restartsNs (history : List Event) : List Int :=
  history.filterMap fun event =>
    match event with
    | .restarted _ spawnedNs => some spawnedNs
    | _ => none

/-- The restarts for a stall since anything else was done or seen. -/
def stallsInRow : List Event → Nat
  | .restarted true _ :: older => stallsInRow older + 1
  | _ => 0

/-- Everything that a visit can do. -/
inductive Visited (config : Config) (c : Child) (v : Visit) : Child × Option Event → Prop where
  | left (next : Child) (event : Option Event) (budget : next.restarts = c.restarts)
      (running : next.lastStartNs = c.lastStartNs) (watched : next.gaveUp = c.gaveUp)
      (quiet : event = none ∨ ∃ done, event = some (.completed done)) :
      Visited config c v (next, event)
  | gaveUp (next : Child) (given : next.gaveUp = true) : Visited config c v (next, some .gaveUp)
  | restarted (next : Child) (stalled : Bool) (watched : c.gaveUp = false)
      (stalls : stalled = true → Stalls config c v)
      (room : (freshBudget config c v.nowNs).restarts < config.maxRestarts)
      (counted : next.restarts = (freshBudget config c v.nowNs).restarts + 1)
      (begun : next.lastStartNs = v.startNs) :
      Visited config c v (next, some (.restarted stalled v.spawnedNs))

section Visits

variable (config : Config)

/-- The budget depends on the count and the last start alone. -/
theorem freshBudget_restarts (c : Child) (nowNs : Int) :
    (freshBudget config c nowNs).restarts =
      if config.restartWindowNs < nowNs - c.lastStartNs then 0 else c.restarts := by
  rw [freshBudget]
  split_ifs <;> rfl

theorem checkProgress_keeps (c : Child) (v : Visit) :
    (checkProgress config c v).1.restarts = c.restarts ∧
      (checkProgress config c v).1.lastStartNs = c.lastStartNs ∧
        (checkProgress config c v).1.gaveUp = c.gaveUp := by
  rw [checkProgress]
  cases v.done with
  | none => exact ⟨rfl, rfl, rfl⟩
  | some done =>
      dsimp only
      split_ifs <;> exact ⟨rfl, rfl, rfl⟩

theorem handleExit_visited {c other : Child} (v : Visit) {stalled : Bool}
    (watched : c.gaveUp = false) (stalls : stalled = true → Stalls config c v)
    (budget : other.restarts = c.restarts) (running : other.lastStartNs = c.lastStartNs) :
    Visited config c v (handleExit config stalled other v) := by
  have fresh : (freshBudget config { other with lastExit := v.exitcode } v.nowNs).restarts =
      (freshBudget config c v.nowNs).restarts := by
    rw [freshBudget_restarts, freshBudget_restarts, budget, running]
  rw [handleExit]
  dsimp only
  split_ifs with clean full
  · exact .gaveUp _ rfl
  · exact .gaveUp _ rfl
  · rw [fresh] at full
    exact .restarted _ stalled watched stalls (not_le.mp full) (congrArg (· + 1) fresh) rfl

theorem completedEvent_quiet (v : Visit) :
    completedEvent v = none ∨ ∃ done, completedEvent v = some (.completed done) := by
  rw [completedEvent]
  cases v.done with
  | none => exact Or.inl rfl
  | some done =>
      rw [Option.bind_some]
      split_ifs
      · exact Or.inr ⟨done, rfl⟩
      · exact Or.inl rfl

theorem visit_visited (c : Child) (v : Visit) : Visited config c v (visit config c v) := by
  rw [visit]
  split_ifs with skipped alive
  · exact .left c none rfl rfl rfl (Or.inl rfl)
  · push Not at skipped
    obtain ⟨budget, running, watched⟩ := checkProgress_keeps config c v
    have started : c.proc = true := by simpa using skipped.2
    have unfinished : c.gaveUp = false := by simpa using skipped.1
    dsimp only
    split_ifs with restart
    · exact .left _ _ budget running watched (completedEvent_quiet v)
    · have stuck : (checkProgress config c v).2 = true := by simpa using restart
      exact handleExit_visited config v unfinished (fun _ => ⟨unfinished, started, alive, stuck⟩)
        budget running
  · push Not at skipped
    have unfinished : c.gaveUp = false := by simpa using skipped.1
    exact handleExit_visited config v unfinished (fun stalled => nomatch stalled) rfl rfl

/-- A stall with the budget spent is the end. -/
theorem visit_gives_up {c : Child} {v : Visit} (stalls : Stalls config c v)
    (spent : config.maxRestarts ≤ (freshBudget config c v.nowNs).restarts) :
    (visit config c v).1.gaveUp = true ∧ (visit config c v).2 = some .gaveUp := by
  obtain ⟨budget, running, -⟩ := checkProgress_keeps config c v
  have stays : ¬(c.gaveUp = true ∨ c.proc = false) := by
    simp [stalls.watched, stalls.started]
  have restart : ¬(checkProgress config c v).2 = false := by simp [stalls.stuck]
  rw [visit, if_neg stays, if_pos stalls.alive]
  dsimp only
  rw [if_neg restart, handleExit]
  dsimp only
  split_ifs with clean full
  · exact ⟨rfl, rfl⟩
  · exact ⟨rfl, rfl⟩
  · rw [freshBudget_restarts, budget, running, ← freshBudget_restarts] at full
    exact absurd spent full

end Visits

/-! What every visit keeps. -/

section Invariants

variable (config : Config)

/-- The restarts are capped, and for a child that is still watched the count of restarts is
the size of the latest burst. -/
structure Budgeted (clockNs : Int) (watched : Watched) : Prop where
  capped : ∀ opens, (restartsNs watched.history).countP
    (fun restartNs => Within opens config.restartWindowNs restartNs) ≤ config.maxRestarts
  bursts : watched.child.gaveUp = false → Bursts config.restartWindowNs config.maxRestarts
    (restartsNs watched.history) watched.child.restarts
  past : watched.child.gaveUp = false → ∀ restartNs ∈ restartsNs watched.history,
    restartNs ≤ watched.child.lastStartNs ∧ restartNs ≤ clockNs

/-- The clock does not run backwards during a visit. -/
structure Visit.InOrder (clockNs : Int) (v : Visit) : Prop where
  check : clockNs ≤ v.checkNs
  progress : v.checkNs ≤ v.progressNs
  now : v.progressNs ≤ v.nowNs
  spawned : v.nowNs ≤ v.spawnedNs
  start : v.spawnedNs ≤ v.startNs

variable {config}

theorem Budgeted.later {clockNs laterNs : Int} {watched : Watched}
    (budgeted : Budgeted config clockNs watched) (later : clockNs ≤ laterNs) :
    Budgeted config laterNs watched := by
  refine ⟨budgeted.capped, budgeted.bursts, fun live restartNs member => ?_⟩
  obtain ⟨begun, past⟩ := budgeted.past live restartNs member
  exact ⟨begun, past.trans later⟩

theorem Budgeted.visit {clockNs : Int} {watched : Watched}
    (budgeted : Budgeted config clockNs watched) {v : Visit} (order : v.InOrder clockNs) :
    Budgeted config v.startNs (watched.visit config v) := by
  obtain ⟨check, progress, now, spawned, begun⟩ := order
  have elapsed : clockNs ≤ v.spawnedNs := by omega
  rw [Watched.visit]
  generalize result : CrashLoop.visit config watched.child v = outcome
  have visited := visit_visited config watched.child v
  rw [result] at visited
  cases visited with
  | left next event budget running live quiet =>
      have unchanged : restartsNs (event.toList ++ watched.history) =
          restartsNs watched.history := by
        obtain rfl | ⟨done, rfl⟩ := quiet <;> rfl
      refine ⟨?_, fun still => ?_, fun still => ?_⟩
      · rw [unchanged]
        exact budgeted.capped
      · rw [unchanged, budget]
        exact budgeted.bursts (live.symm.trans still)
      · rw [unchanged, running]
        exact (budgeted.later (elapsed.trans begun)).past (live.symm.trans still)
  | gaveUp next given =>
      refine ⟨budgeted.capped, fun still => ?_, fun still => ?_⟩
      · rw [given] at still
        cases still
      · rw [given] at still
        cases still
  | restarted next stalled live stalls room counted started =>
      have bursts := budgeted.bursts live
      have past := budgeted.past live
      have grown : Bursts config.restartWindowNs config.maxRestarts
          (v.spawnedNs :: restartsNs watched.history) next.restarts := by
        rw [counted]
        rw [freshBudget_restarts] at room ⊢
        split_ifs at room ⊢ with expired
        · refine bursts.next (fun restartNs member => ?_) room
          have earlier := past restartNs member
          omega
        · exact bursts.grow (fun restartNs member => (past restartNs member).2.trans elapsed) room
      refine ⟨grown.countP_le, fun _ => grown, fun _ restartNs member => ?_⟩
      rw [started]
      obtain rfl | member := List.mem_cons.mp member
      · exact ⟨begun, begun⟩
      · have earlier := (past restartNs member).2.trans (elapsed.trans begun)
        exact ⟨earlier, earlier⟩

/-- A child that stalls again was last started within the window. -/
def InWindow (config : Config) (watched : Watched) (v : Visit) : Prop :=
  Stalls config watched.child v → 0 < stallsInRow watched.history →
    v.nowNs - watched.child.lastStartNs ≤ config.restartWindowNs

/-- Each stall in a row is counted. -/
def Counted (watched : Watched) : Prop :=
  watched.child.gaveUp = false → stallsInRow watched.history ≤ watched.child.restarts

theorem Counted.visit {watched : Watched} (counted : Counted watched) {v : Visit}
    (inWindow : InWindow config watched v) : Counted (watched.visit config v) := by
  rw [Watched.visit]
  generalize result : CrashLoop.visit config watched.child v = outcome
  have visited := visit_visited config watched.child v
  rw [result] at visited
  cases visited with
  | left next event budget running live quiet =>
      intro still
      have before := counted (live.symm.trans still)
      obtain rfl | ⟨done, rfl⟩ := quiet
      · exact before.trans_eq budget.symm
      · exact Nat.zero_le _
  | gaveUp next given =>
      intro still
      rw [given] at still
      cases still
  | restarted next stalled live stalls room increased started =>
      intro _
      cases stalled with
      | false => exact Nat.zero_le _
      | true =>
          change stallsInRow watched.history + 1 ≤ next.restarts
          have before := counted live
          have window := inWindow (stalls rfl)
          rw [increased, freshBudget_restarts]
          split_ifs with expired
          · omega
          · omega

/-- After as many stalls in a row as the ceiling allows, the next one is the end. -/
theorem Counted.gives_up {watched : Watched} (counted : Counted watched) {v : Visit}
    (inWindow : InWindow config watched v) (stalls : Stalls config watched.child v)
    (ceiling : config.maxRestarts ≤ stallsInRow watched.history) :
    (watched.visit config v).child.gaveUp = true ∧
      restartsNs (watched.visit config v).history = restartsNs watched.history := by
  have before := counted stalls.watched
  have window := inWindow stalls
  have spent : config.maxRestarts ≤ (freshBudget config watched.child v.nowNs).restarts := by
    rw [freshBudget_restarts]
    split_ifs with expired
    · omega
    · exact ceiling.trans before
  obtain ⟨given, event⟩ := visit_gives_up config stalls spent
  refine ⟨given, ?_⟩
  rw [Watched.visit, event]
  rfl

end Invariants

/-! Runs of the loop. -/

section Runs

variable (config : Config)

def InOrder (supervisor : Supervisor) (input : Nat × Visit) : Prop :=
  input.2.InOrder supervisor.clockNs

def ChildInWindow (supervisor : Supervisor) (input : Nat × Visit) : Prop :=
  ∀ watched, supervisor.children[input.1]? = some watched → InWindow config watched input.2

variable {config}

theorem mem_watch {supervisor : Supervisor} {input : Nat × Visit} {watched : Watched}
    (member : watched ∈ (supervisor.watch config input).children) :
    watched ∈ supervisor.children ∨ ∃ old, supervisor.children[input.1]? = some old ∧
      watched = old.visit config input.2 := by
  obtain ⟨index, found⟩ := List.mem_iff_getElem?.mp member
  rw [Supervisor.watch, List.getElem?_modify] at found
  obtain ⟨old, held, rfl⟩ := Option.map_eq_some_iff.mp found
  split_ifs with visited
  · exact Or.inr ⟨old, visited ▸ held, rfl⟩
  · exact Or.inl (List.mem_of_getElem? held)

theorem run_budgeted (nowNs : Int) (startsNs : List Int) {visits : List (Nat × Visit)}
    (clocked : Run.Admissible (Supervisor.watch config) InOrder (started nowNs startsNs) visits) :
    ∀ watched ∈ (Run.run (Supervisor.watch config) (started nowNs startsNs) visits).children,
      Budgeted config
        (Run.run (Supervisor.watch config) (started nowNs startsNs) visits).clockNs watched := by
  apply Run.invariant_run (Supervisor.watch config) InOrder
    (fun supervisor => ∀ watched ∈ supervisor.children,
      Budgeted config supervisor.clockNs watched) _ _ _ _ clocked
  · intro supervisor input holds order watched member
    obtain old | ⟨old, held, rfl⟩ := mem_watch member
    · obtain ⟨check, progress, now, spawned, begun⟩ := order
      have later : supervisor.clockNs ≤ input.2.startNs := by omega
      exact (holds watched old).later later
    · exact (holds old (List.mem_of_getElem? held)).visit order
  · intro watched member
    obtain ⟨startNs, -, rfl⟩ := List.mem_map.mp member
    refine ⟨fun opens => Nat.zero_le _, fun _ => SlidingWindow.bursts_nil, ?_⟩
    intro _ restartNs none
    cases none

theorem run_counted (nowNs : Int) (startsNs : List Int) {visits : List (Nat × Visit)}
    (inWindow : Run.Admissible (Supervisor.watch config) (ChildInWindow config)
      (started nowNs startsNs) visits) :
    ∀ watched ∈ (Run.run (Supervisor.watch config) (started nowNs startsNs) visits).children,
      Counted watched := by
  apply Run.invariant_run (Supervisor.watch config) (ChildInWindow config)
    (fun supervisor => ∀ watched ∈ supervisor.children, Counted watched) _ _ _ _ inWindow
  · intro supervisor input holds allowed watched member
    obtain old | ⟨old, held, rfl⟩ := mem_watch member
    · exact holds watched old
    · exact (holds old (List.mem_of_getElem? held)).visit (allowed old held)
  · intro watched member
    obtain ⟨startNs, -, rfl⟩ := List.mem_map.mp member
    exact fun _ => Nat.le_refl 0

end Runs

/-- No window holds more restarts of a child than the ceiling allows. A child that stalls
again within the window each time is given up on at the ceiling. -/
theorem crash_loop_ceiling (config : Config) (nowNs : Int) (startsNs : List Int)
    (visits : List (Nat × Visit))
    (clocked : Run.Admissible (Supervisor.watch config) InOrder (started nowNs startsNs) visits) :
    (∀ watched ∈ (Run.run (Supervisor.watch config) (started nowNs startsNs) visits).children,
      ∀ opens, (restartsNs watched.history).countP
        (fun restartNs => Within opens config.restartWindowNs restartNs) ≤ config.maxRestarts) ∧
    (Run.Admissible (Supervisor.watch config) (ChildInWindow config) (started nowNs startsNs)
      visits → ∀ front input back, visits = front ++ input :: back → ∀ watched,
        (Run.run (Supervisor.watch config) (started nowNs startsNs) front).children[input.1]? =
          some watched →
        Stalls config watched.child input.2 →
        config.maxRestarts ≤ stallsInRow watched.history →
        ∃ next, (Run.run (Supervisor.watch config) (started nowNs startsNs)
            (front ++ [input])).children[input.1]? = some next ∧
          next.child.gaveUp = true ∧
          restartsNs next.history = restartsNs watched.history) := by
  constructor
  · intro watched member
    exact (run_budgeted nowNs startsNs clocked watched member).capped
  · rintro inWindow front input back rfl watched held stalls ceiling
    rw [Run.admissible_append] at inWindow
    have counted := run_counted nowNs startsNs inWindow.1 watched (List.mem_of_getElem? held)
    obtain ⟨given, kept⟩ := counted.gives_up (inWindow.2.1 watched held) stalls ceiling
    refine ⟨watched.visit config input.2, ?_, given, kept⟩
    rw [Run.run_append, Run.run_cons, Run.run_nil, Supervisor.watch, List.getElem?_modify, held]
    simp

/-! A child that holds a claim and finishes nothing, visited every so often. -/

section Stuck

/-- The visit finds the child stalled at this time, and ends it with a signal. -/
def stuckAt (timeNs : Int) : Nat × Visit :=
  (0, ⟨true, timeNs, some 0, some true, timeNs, some (-15), timeNs, timeNs, timeNs⟩)

/-- A window longer than the stall timeout, and one restart. -/
def strict : Config := ⟨1, 1000, 500⟩

theorem strict_gives_up :
    ∃ next, (Run.run (Supervisor.watch strict) (started 0 [0])
        ([stuckAt 600] ++ [stuckAt 1200])).children[0]? = some next ∧
      next.child.gaveUp = true ∧ restartsNs next.history = [600] := by
  have clocked : Run.Admissible (Supervisor.watch strict) InOrder (started 0 [0])
      ([stuckAt 600] ++ [stuckAt 1200]) := by
    exact ⟨⟨by decide, by decide, by decide, by decide, by decide⟩,
      ⟨by decide, by decide, by decide, by decide, by decide⟩, trivial⟩
  have inWindow : Run.Admissible (Supervisor.watch strict) (ChildInWindow strict) (started 0 [0])
      ([stuckAt 600] ++ [stuckAt 1200]) := by
    refine ⟨fun watched held _ _ => ?_, fun watched held _ _ => ?_, trivial⟩
    · obtain rfl := Option.some.inj held
      decide
    · obtain rfl := Option.some.inj held
      decide
  exact (crash_loop_ceiling strict 0 [0] _ clocked).2 inWindow [stuckAt 600] (stuckAt 1200) [] rfl
    _ rfl ⟨rfl, rfl, rfl, by decide⟩ (by decide)

/-- With the parameters the supervisor has by default, every stall comes after the window. -/
theorem default_never_gives_up :
    Run.Admissible (Supervisor.watch {}) InOrder (started 0 [0])
        ([1, 2, 3, 4, 5, 6].map fun k => stuckAt (k * 1000 * 10 ^ 9)) ∧
      (Run.run (Supervisor.watch {}) (started 0 [0])
        ([1, 2, 3, 4, 5].map fun k => stuckAt (k * 1000 * 10 ^ 9))).children.map
          (fun watched => (watched.child.gaveUp, stallsInRow watched.history)) = [(false, 5)] ∧
      (Run.run (Supervisor.watch {}) (started 0 [0])
        ([1, 2, 3, 4, 5, 6].map fun k => stuckAt (k * 1000 * 10 ^ 9))).children.map
          (fun watched => (watched.child.gaveUp, stallsInRow watched.history)) = [(false, 6)] := by
  have clocked : ∀ k clockNs : Int, clockNs ≤ k → (stuckAt k).2.InOrder clockNs :=
    fun k clockNs later => ⟨later, le_rfl, le_rfl, le_rfl, le_rfl⟩
  refine ⟨?_, by decide +kernel, by decide +kernel⟩
  refine ⟨clocked _ _ ?_, clocked _ _ ?_, clocked _ _ ?_, clocked _ _ ?_, clocked _ _ ?_,
    clocked _ _ ?_, trivial⟩ <;> decide

end Stuck

end Gyza.CrashLoop

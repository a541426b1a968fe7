import Gyza.Gossip
import Gyza.Lib.Causality
import Mathlib.Data.Prod.Lex

/-! Causality of the hybrid logical clock, in Python (`gyza/schema.py`) and in Rust
(`gyza-core`).

The Rust clock counts in `i64`, and a release build wraps a counter at its top. As
long as none does, it moves like the Python clock. -/

namespace Gyza

open Causality (Act System Causal step)

namespace Hlc

def snapshot (clock : Hlc) : Int × Int × String := (clock.l, clock.c, clock.nodeId)

/-- The pair of `l` and `c` of a tuple, in lexicographic order. -/
def rank (tuple : Int × Int × String) : Int ×ₗ Int := toLex (tuple.1, tuple.2.1)

def clock : Causality.Clock Hlc (Int × Int × String) (Int ×ₗ Int) Int where
  snapshot := snapshot
  rank := rank
  now pt clock := clock.now pt
  recv pt tuple clock := clock.recv pt tuple.1 tuple.2.1 tuple.2.2
  returned _ _ := rfl

theorem rank_lt_now (clock : Hlc) (pt : Int) : rank clock.snapshot < rank (clock.now pt).1 := by
  simp only [rank, snapshot, now, Prod.Lex.toLex_lt_toLex]
  split_ifs with kept
  · omega
  · omega

theorem rank_lt_recv (clock : Hlc) (pt : Int) (tuple : Int × Int × String) :
    rank clock.snapshot < rank (clock.recv pt tuple.1 tuple.2.1 tuple.2.2).snapshot ∧
      rank tuple < rank (clock.recv pt tuple.1 tuple.2.1 tuple.2.2).snapshot := by
  rcases tuple with ⟨l, c, node⟩
  simp only [rank, snapshot, recv, Prod.Lex.toLex_lt_toLex]
  split_ifs with both own remote
  · omega
  · omega
  · omega
  · omega

end Hlc

/-- `HlcTuple` of `gyza-core`. -/
structure HlcTuple where
  l : Int64
  c : Int64
  nodeId : String

/-- `Hlc` of `gyza-core`, with the state its mutex guards. -/
structure RustHlc where
  nodeId : String
  l : Int64
  c : Int64

namespace RustHlc

def withInitial (nodeId : String) (l c : Int64) : RustHlc := ⟨nodeId, l, c⟩

def nowWithClock (clock : RustHlc) (pt : Int64) : HlcTuple × RustHlc :=
  let l := max clock.l pt
  let c := if l = clock.l then clock.c + 1 else 0
  (⟨l, c, clock.nodeId⟩, { clock with l := l, c := c })

def recvWithClock (clock : RustHlc) (remote : HlcTuple) (pt : Int64) : RustHlc :=
  let l := max (max clock.l remote.l) pt
  { clock with
    c :=
      if l = clock.l ∧ l = remote.l then max clock.c remote.c + 1
      else if l = clock.l then clock.c + 1
      else if l = remote.l then remote.c + 1
      else 0
    l := l }

def snapshot (clock : RustHlc) : HlcTuple := ⟨clock.l, clock.c, clock.nodeId⟩

def rank (tuple : HlcTuple) : Int ×ₗ Int := toLex (tuple.l.toInt, tuple.c.toInt)

def clock : Causality.Clock RustHlc HlcTuple (Int ×ₗ Int) Int64 where
  snapshot := snapshot
  rank := rank
  now pt clock := clock.nowWithClock pt
  recv pt remote clock := clock.recvWithClock remote pt
  returned _ _ := rfl

/-- The counters that the step adds one to are below `i64::MAX`. -/
def CountersFit {ι : Type} (system : System ι RustHlc HlcTuple) : Act ι Int64 → Prop
  | .now node pt =>
      max (system.clocks node).l pt = (system.clocks node).l →
        (system.clocks node).c ≠ Int64.maxValue
  | .recv node pt source =>
      ∀ event, system.events[source]? = some event → event.source = none →
        let l := max (max (system.clocks node).l event.tuple.l) pt
        (l = (system.clocks node).l → (system.clocks node).c ≠ Int64.maxValue) ∧
          (l = event.tuple.l → event.tuple.c ≠ Int64.maxValue)

/-! The Python clock that a Rust clock stands for. -/

def toHlc (clock : RustHlc) : Hlc := ⟨clock.nodeId, clock.l.toInt, clock.c.toInt⟩

theorem toInt_max (first second : Int64) :
    (max first second).toInt = max first.toInt second.toInt := by
  have larger : max first second = if first ≤ second then second else first := rfl
  rw [larger, max_def]
  simp only [Int64.le_iff_toInt_le]
  split_ifs
  · rfl
  · rfl

theorem toInt_succ (counter : Int64) (below : counter ≠ Int64.maxValue) :
    (counter + 1).toInt = counter.toInt + 1 := by
  have top : counter.toInt ≠ 2 ^ 63 - 1 := by
    intro top
    exact below (Int64.toInt_inj.mp (top.trans Int64.toInt_maxValue.symm))
  have upper := counter.toInt_lt
  have lower := counter.le_toInt
  rw [Int64.toInt_add, show (1 : Int64).toInt = 1 from rfl]
  exact Int.bmod_eq_of_le (by omega) (by omega)

theorem max_ne_maxValue {first second : Int64} (one : first ≠ Int64.maxValue)
    (other : second ≠ Int64.maxValue) : max first second ≠ Int64.maxValue := by
  have larger : max first second = if first ≤ second then second else first := rfl
  rw [larger]
  split_ifs
  · exact other
  · exact one

theorem toHlc_now (clock : RustHlc) (pt : Int64)
    (fits : max clock.l pt = clock.l → clock.c ≠ Int64.maxValue) :
    (clock.nowWithClock pt).2.toHlc = (clock.toHlc.now pt.toInt).2 := by
  have python : (clock.toHlc.now pt.toInt).2 = ⟨clock.nodeId, max clock.l.toInt pt.toInt,
      if max clock.l.toInt pt.toInt = clock.l.toInt then clock.c.toInt + 1 else 0⟩ := rfl
  rw [python, ← toInt_max]
  simp only [Int64.toInt_inj, toHlc, nowWithClock, Hlc.mk.injEq, true_and]
  split_ifs with kept
  · exact toInt_succ _ (fits kept)
  · rfl

theorem toHlc_recv (clock : RustHlc) (remote : HlcTuple) (pt : Int64)
    (own : max (max clock.l remote.l) pt = clock.l → clock.c ≠ Int64.maxValue)
    (theirs : max (max clock.l remote.l) pt = remote.l → remote.c ≠ Int64.maxValue) :
    (clock.recvWithClock remote pt).toHlc =
      clock.toHlc.recv pt.toInt remote.l.toInt remote.c.toInt remote.nodeId := by
  have python (l : Int) (merged : l = max (max clock.l.toInt remote.l.toInt) pt.toInt) :
      clock.toHlc.recv pt.toInt remote.l.toInt remote.c.toInt remote.nodeId =
        ⟨clock.nodeId, l,
          if l = clock.l.toInt ∧ l = remote.l.toInt then max clock.c.toInt remote.c.toInt + 1
          else if l = clock.l.toInt then clock.c.toInt + 1
          else if l = remote.l.toInt then remote.c.toInt + 1
          else 0⟩ := by
    rw [merged]
    rfl
  rw [python (max (max clock.l remote.l) pt).toInt (by rw [toInt_max, toInt_max]), ← toInt_max]
  simp only [Int64.toInt_inj, toHlc, recvWithClock, Hlc.mk.injEq, true_and]
  split_ifs with both mine remotes
  · exact toInt_succ _ (max_ne_maxValue (own both.1) (theirs both.2))
  · exact toInt_succ _ (own mine)
  · exact toInt_succ _ (theirs remotes)
  · rfl

/-- Counters that fit keep the Rust clock in step with the Python clock, which advances. -/
theorem advances_of_fit {ι : Type} (system : System ι RustHlc HlcTuple) (act : Act ι Int64)
    (fits : CountersFit system act) : Causality.Advances clock system act := by
  cases act with
  | now node pt =>
      have moved := (system.clocks node).toHlc.rank_lt_now pt.toInt
      have shown : ((system.clocks node).toHlc.now pt.toInt).1 =
          ((system.clocks node).toHlc.now pt.toInt).2.snapshot := rfl
      rw [shown, ← toHlc_now _ pt fits] at moved
      exact moved
  | recv node pt source =>
      intro event found drawn
      rcases fits event found drawn with ⟨own, theirs⟩
      have moved := (system.clocks node).toHlc.rank_lt_recv pt.toInt
        (event.tuple.l.toInt, event.tuple.c.toInt, event.tuple.nodeId)
      simp only [← toHlc_recv _ event.tuple pt own theirs] at moved
      exact moved

end RustHlc

/-- Python clocks: every step advances, whatever the physical clocks read. -/
theorem Hlc.advances {ι : Type} (system : System ι Hlc (Int × Int × String)) (act : Act ι Int) :
    Causality.Advances Hlc.clock system act := by
  cases act with
  | now node pt => exact (system.clocks node).rank_lt_now pt
  | recv node pt source =>
      intro event _ _
      exact (system.clocks node).rank_lt_recv pt event.tuple

/-- Tuples follow the order of causes in every run of Python clocks, and in every run of Rust
clocks that adds one only to counters below `i64::MAX`. -/
theorem hlc_causal (ι : Type) [DecidableEq ι] :
    (∀ (clocks : ι → Hlc) (acts : List (Act ι Int)),
      Causal Hlc.clock (Run.run (step Hlc.clock) ⟨clocks, []⟩ acts).events) ∧
    ∀ (clocks : ι → RustHlc) (acts : List (Act ι Int64)),
      Run.Admissible (step RustHlc.clock) RustHlc.CountersFit ⟨clocks, []⟩ acts →
        Causal RustHlc.clock (Run.run (step RustHlc.clock) ⟨clocks, []⟩ acts).events := by
  constructor
  · intro clocks acts
    apply Causality.causal_run
    apply Run.admissible_of_steps
    intro front act rest _
    exact Hlc.advances _ act
  · intro clocks acts fit
    apply Causality.causal_run
    exact Run.admissible_mono _ RustHlc.advances_of_fit _ acts fit

namespace Sample

/-- One node draws a tuple, the other merges it while its own clock lags, and draws. -/
def rustActs : List (Act Bool Int64) := [.now false 5, .recv true 3 0, .now true 4]

def rustRun : System Bool RustHlc HlcTuple :=
  Run.run (step RustHlc.clock) ⟨fun _ => RustHlc.withInitial "n" 0 0, []⟩ rustActs

/-- A clock resumed one below the top of its counter, with a physical clock that stands still. -/
def resumedRun : System Unit RustHlc HlcTuple :=
  Run.run (step RustHlc.clock)
    ⟨fun _ => RustHlc.withInitial "n" 0 (Int64.maxValue - 1), []⟩ [.now () 0, .now () 0]

end Sample

theorem hlc_causal_sample :
    Sample.rustRun.events.map (fun event => RustHlc.rank event.tuple) =
        [toLex (5, 0), toLex (5, 1), toLex (5, 2)] ∧
      Causal RustHlc.clock Sample.rustRun.events := by
  refine ⟨by decide, (hlc_causal Bool).2 _ _ ⟨?_, ?_, ?_, trivial⟩⟩
  · intro _
    decide
  · intro event found _
    cases found
    exact ⟨fun _ => by decide, fun _ => by decide⟩
  · intro _
    decide

/-- The second tuple that the resumed clock returns lies below the first. -/
theorem hlc_wraps : ¬Causal RustHlc.clock Sample.resumedRun.events := by
  intro causal
  have grows := causal.drawn 0 1 _ _ (by decide) rfl rfl rfl rfl rfl
  revert grows
  decide

end Gyza

import Gyza.BoardRuns
import Gyza.Lib.Paging

/-! `get_unclaimed` with a limit.

The limit bounds the rows that SQL returns; the dependency gate then takes blocked
combiners out of them. What is left is a prefix of the unbounded answer only where no
blocked combiner among the first rows hides a servable item behind them. -/

namespace Gyza

/-- The rows of the query without its `LIMIT`, best-rewarded first. -/
def Board.openRows (board : Board) (minReward : Float) (tier nowNs : Int) : List WorkItem :=
  (board.items.rows.filter (fun item => item.claimedBy = none ∧ minReward ≤ item.reward ∧
    item.requiredTier ≤ tier ∧ nowNs < item.createdAtNs + item.ttlNs)).insertionSort
      Board.servedBefore

section Fetch

variable (board : Board) (minReward : Float) (tier nowNs : Int) (limit : Nat)

/-- The bounded answer is the front of the unbounded one, and empty only with it. -/
structure BoundedFetch : Prop where
  front : board.getUnclaimed minReward tier (some limit) nowNs =
    (board.getUnclaimed minReward tier none nowNs).map (List.take limit)
  servesSome : 1 ≤ limit → ∀ all, board.getUnclaimed minReward tier none nowNs = .ok all →
    all ≠ [] → ∀ served, board.getUnclaimed minReward tier (some limit) nowNs = .ok served →
      served ≠ []

/-- No row among the first `limit` is blocked, or no row behind them is servable. -/
def NoneHidden : Prop :=
  (∀ item ∈ (board.openRows minReward tier nowNs).take limit, board.servable item = true) ∨
    ∀ item ∈ (board.openRows minReward tier nowNs).drop limit, board.servable item = false

variable {board minReward tier nowNs limit}

theorem getUnclaimed_unbounded (binds : FitsInt64 tier ∧ FitsInt64 nowNs) :
    board.getUnclaimed minReward tier none nowNs =
      .ok ((board.openRows minReward tier nowNs).filter board.servable) := by
  rw [Board.getUnclaimed, if_pos ⟨binds.1, binds.2, by simp⟩]
  rfl

theorem getUnclaimed_bounded (binds : FitsInt64 tier ∧ FitsInt64 nowNs)
    (fits : FitsInt64 (limit : Int)) :
    board.getUnclaimed minReward tier (some limit) nowNs =
      .ok (((board.openRows minReward tier nowNs).take limit).filter board.servable) := by
  have within : ∀ bound ∈ some (limit : Int), FitsInt64 bound := by
    intro bound member
    cases member
    exact fits
  have positive : ¬((limit : Int) < 0) := by omega
  rw [Board.getUnclaimed, if_pos ⟨binds.1, binds.2, within⟩]
  simp only [Board.limited, if_neg positive, Int.toNat_natCast]
  rfl

theorem getUnclaimed_unbound (refused : ¬(FitsInt64 tier ∧ FitsInt64 nowNs)) (bound : Option Int) :
    board.getUnclaimed minReward tier bound nowNs = .error .bindOverflow := by
  rw [Board.getUnclaimed, if_neg (fun binds => refused ⟨binds.1, binds.2.1⟩)]

theorem BoundedFetch.of_front (front : board.getUnclaimed minReward tier (some limit) nowNs =
    (board.getUnclaimed minReward tier none nowNs).map (List.take limit)) :
    BoundedFetch board minReward tier nowNs limit := by
  refine ⟨front, ?_⟩
  intro positive all answer some served bounded
  rw [front, answer] at bounded
  cases bounded
  cases all with
  | nil => exact absurd rfl some
  | cons first rest =>
      obtain ⟨less, rfl⟩ : ∃ less, limit = less + 1 := ⟨limit - 1, by omega⟩
      simp

end Fetch

namespace Sample

/-- A combiner of `parent-1` that pays better than the sibling it waits for. -/
def waitingCombiner : WorkItem :=
  { sampleItem with
    id := "combine-1"
    parentId := some "parent-1"
    reward := 0.75
    outputSpec := [("kind", .str "combine")]
    reward_range := by decide +kernel }

def openLeaf : WorkItem := { sampleItem with id := "leaf-1", parentId := some "parent-1" }

def blockedBoard : Board := ⟨Table.empty, ⟨[waitingCombiner, openLeaf], by decide⟩⟩

end Sample

end Gyza

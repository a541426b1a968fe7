import Gyza.Lib.Replication
import Gyza.Raft

/-! Clusters of boards behind one Raft log, with the claims their runners release and
reclaim on single nodes. -/

namespace Gyza

open Run (run Admissible)
open Replication (Replica Step Machine)

/-- What a runner does to its own node's board outside the log. -/
inductive LocalCall where
  | releaseClaim (workItemId : String)
  | reclaimExpiredClaims (leaseNs : Option Int) (nowNs : Int)

def LocalCall.call : LocalCall → BoardCall
  | .releaseClaim workItemId => .releaseClaim workItemId
  | .reclaimExpiredClaims leaseNs nowNs => .reclaimExpiredClaims leaseNs nowNs

/-- A local call that matches no row. -/
def LocalCall.MatchesNone (board : Board) : LocalCall → Prop
  | .releaseClaim workItemId => board.items.rows.any (Board.releasable workItemId) = false
  | .reclaimExpiredClaims leaseNs nowNs =>
      board.items.rows.filter (Board.leaseExpired (nowNs - leaseNs.getD Board.claimLeaseNs)) = []

/-- A board as a replicated state machine. -/
def boardMachine : Machine Board RaftEntry (Except BoardError (Option Bool)) LocalCall where
  apply board entry := (entry.result board, boardStep board entry.call)
  local_ board call := boardStep board call.call

abbrev BoardReplica := Replica Board (Except BoardError (Option Bool))

variable {ι : Type}

/-- The agent that holds an item. -/
def holder (board : Board) (id : String) : Option String :=
  (board.items.get? id).bind WorkItem.claimedBy

/-- Replicas at the same place of the log agree on claims and completions, every entry returned
the same wherever it was applied, and no item has two holders. -/
structure ClusterAgrees (cluster : ι → BoardReplica) : Prop where
  rows : ∀ first second, (cluster first).applied = (cluster second).applied → ∀ id,
    ((cluster first).state.items.get? id).map (fun row => (row.claimedBy, row.completion)) =
      ((cluster second).state.items.get? id).map (fun row => (row.claimedBy, row.completion))
  results : ∀ first second place, place < (cluster first).applied →
    place < (cluster second).applied →
      (cluster first).results[place]? = (cluster second).results[place]?
  oneHolder : ∀ first second id one two, holder (cluster first).state id = some one →
    holder (cluster second).state id = some two → one = two

/-- A condition on the node a local call is made on. -/
def Harmless (cluster : ι → BoardReplica) : Step ι LocalCall → Prop
  | .apply _ => True
  | .local_ replica call => call.MatchesNone (cluster replica).state

theorem local_inert {board : Board} {call : LocalCall} (none : call.MatchesNone board) :
    boardStep board call.call = board := by
  cases call with
  | releaseClaim workItemId =>
      have same : board.items.update (Board.releasable workItemId) WorkItem.released
          WorkItem.released_id = board.items := by
        apply Table.update_eq_self
        intro row member
        simpa using List.any_eq_false.mp none row member
      simp only [LocalCall.call, boardStep, Board.releaseClaim, same]
  | reclaimExpiredClaims leaseNs nowNs =>
      simp only [LocalCall.call, boardStep, Board.reclaimExpiredClaims]
      split_ifs
      · have empty : board.items.rows.filter (Board.leaseExpired (nowNs -
            leaseNs.getD Board.claimLeaseNs)) = [] := none
        rw [empty]
        rfl
      · rfl

/-- No log entry takes an item from its holder. -/
theorem entry_keeps_holder (board : Board) (entry : RaftEntry) (id agent : String)
    (held : holder board id = some agent) : holder (boardStep board entry.call) id = some agent := by
  obtain ⟨row, stored, owner⟩ := Option.bind_eq_some_iff.mp held
  obtain ⟨after, reached, changes⟩ := boardStep_changes stored entry.call
  rw [holder, reached, Option.bind_some]
  generalize applied : entry.call = call at changes
  cases changes with
  | kept => exact owner
  | completed => exact owner
  | claimed unclaimed =>
      rw [unclaimed] at owner
      cases owner
  | _ => cases entry <;> cases applied

theorem entries_keep_holder (entries : List RaftEntry) (replica : BoardReplica) (id agent : String)
    (held : holder replica.state id = some agent) :
    holder (entries.foldl (Replica.applyEntry boardMachine) replica).state id = some agent := by
  induction entries generalizing replica with
  | nil => exact held
  | cons entry rest ih => exact ih _ (entry_keeps_holder replica.state entry id agent held)

theorem inert_of_harmless (cluster : ι → BoardReplica) (next : Step ι LocalCall)
    (harmless : Harmless cluster next) : Replication.Inert boardMachine cluster next := by
  cases next with
  | apply replica => trivial
  | local_ replica call => exact local_inert harmless

theorem agrees_of_synced {start : Board} {log : List RaftEntry} {cluster : ι → BoardReplica}
    (synced : Replication.Synced boardMachine start log cluster) : ClusterAgrees cluster := by
  have later : ∀ behind ahead, (cluster behind).applied ≤ (cluster ahead).applied → ∀ id agent,
      holder (cluster behind).state id = some agent → holder (cluster ahead).state id = some agent := by
    intro behind ahead order id agent held
    rcases synced.continues order with ⟨entries, same⟩
    rw [same]
    exact entries_keep_holder entries _ id agent held
  constructor
  · intro first second same id
    rw [synced.eq_of_applied same]
  · intro first second place firstReached secondReached
    exact synced.result_eq firstReached secondReached
  · intro first second id one two firstHeld secondHeld
    rcases le_total (cluster first).applied (cluster second).applied with order | order
    · have kept := later first second order id one firstHeld
      exact Option.some.inj (kept.symm.trans secondHeld)
    · have kept := later second first order id two secondHeld
      exact Option.some.inj (firstHeld.symm.trans kept)

variable [DecidableEq ι]

/-- Along every run whose releases and reclaims match no row of their node, the replicas agree. -/
theorem cluster_agrees_of_harmless (start : Board) (log : List RaftEntry)
    (steps : List (Step ι LocalCall))
    (harmless : Admissible (Replication.step boardMachine log) Harmless
      (Replication.initial start) steps)
    (front rest : List (Step ι LocalCall)) (split : steps = front ++ rest) :
    ClusterAgrees (run (Replication.step boardMachine log) (Replication.initial start) front) := by
  rw [split, Run.admissible_append] at harmless
  apply agrees_of_synced
  apply Replication.synced_run boardMachine start log front
  exact Run.admissible_mono _ inert_of_harmless _ front harmless.1

/-- An item and the claims of two agents on it. -/
def twoClaimsLog : List RaftEntry :=
  [.postIntent "intent-1" "goal" 1, .postWorkItem sampleItem,
    .claimWorkItem "item-1" "agent-1" 5 0 "node", .claimWorkItem "item-1" "agent-2" 6 0 "node"]

def quietSteps : List (Step Bool LocalCall) :=
  [.local_ true (.releaseClaim "item-1"), .apply true, .apply false, .apply true]

theorem cluster_agrees_sample :
    ClusterAgrees (run (Replication.step boardMachine twoClaimsLog) (Replication.initial Board.empty)
      quietSteps) := by
  apply cluster_agrees_of_harmless Board.empty twoClaimsLog quietSteps _ quietSteps []
  · exact (List.append_nil _).symm
  · exact ⟨rfl, trivial, trivial, trivial, trivial⟩

/-- One node releases its claim between the two claims of the log. -/
def splitHolders : List (Step Bool LocalCall) :=
  [.apply true, .apply true, .apply true, .local_ true (.releaseClaim "item-1"), .apply true,
    .apply false, .apply false, .apply false, .apply false]

/-- Each node then has a holder of its own. -/
theorem two_holders :
    ¬ClusterAgrees (run (Replication.step boardMachine twoClaimsLog) (Replication.initial Board.empty)
      splitHolders) := by
  intro agrees
  have one : holder (run (Replication.step boardMachine twoClaimsLog) (Replication.initial Board.empty)
      splitHolders true).state "item-1" = some "agent-2" := by decide +kernel
  have two : holder (run (Replication.step boardMachine twoClaimsLog) (Replication.initial Board.empty)
      splitHolders false).state "item-1" = some "agent-1" := by decide +kernel
  exact absurd (agrees.oneHolder true false "item-1" "agent-2" "agent-1" one two) (by decide)

end Gyza

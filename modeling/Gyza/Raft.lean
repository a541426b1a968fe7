import Gyza.BoardRuns
import Gyza.ClaimMerge

/-! Boards behind a Raft log (`gyza/network/raft.py`): what each log entry does on a
replica, and the two modes of claiming and completing (`gyza/blackboard.py`). -/

namespace Gyza

open Run (run Admissible)

/-- The entries of the log that change a board. -/
inductive RaftEntry where
  | postIntent (intentId goalSpecJson : String) (createdAtNs : Int)
  | postWorkItem (item : WorkItem)
  | claimWorkItem (workItemId agentPubkey : String) (hlcL hlcC : Int) (hlcNode : String)
  | completeWorkItem (workItemId outputHash icpEnvelopeHash : String) (success : Bool)
      (completedAtNs : Int)

/-- The `_direct` call an entry makes on each replica. -/
def RaftEntry.call : RaftEntry → BoardCall
  | .postIntent intentId goalSpecJson createdAtNs => .postIntent intentId goalSpecJson createdAtNs
  | .postWorkItem item => .postWorkItem item
  | .claimWorkItem workItemId agentPubkey hlcL hlcC hlcNode =>
      -- the claimant's tier is not part of the entry
      .tryClaim workItemId agentPubkey hlcL hlcC hlcNode none
  | .completeWorkItem workItemId outputHash icpEnvelopeHash success completedAtNs =>
      -- nor is the expected owner
      .completeWorkItem workItemId outputHash icpEnvelopeHash success completedAtNs none

/-- What an entry returns on a replica: only a claim returns a value. -/
def RaftEntry.result (board : Board) : RaftEntry → Except BoardError (Option Bool)
  | .postIntent intentId goalSpecJson createdAtNs =>
      (board.postIntentDirect intentId goalSpecJson createdAtNs).map (fun _ => none)
  | .postWorkItem item => (board.postWorkItemDirect item).map (fun _ => none)
  | .claimWorkItem workItemId agentPubkey hlcL hlcC hlcNode =>
      (board.tryClaimDirect workItemId agentPubkey hlcL hlcC hlcNode none).map
        (fun outcome => some outcome.1)
  | .completeWorkItem workItemId outputHash icpEnvelopeHash success completedAtNs =>
      (board.completeWorkItemDirect workItemId outputHash icpEnvelopeHash success completedAtNs
        none).map (fun _ => none)

/-! Claiming. -/

namespace Board

def tierPermits (board : Board) (workItemId : String) (claimantTier : Option Int) : Bool :=
  match board.items.get? workItemId with
  | none => true
  | some row => row.requiredTier ≤ claimantTier.getD 0

end Board

section Claiming

variable {ι : Type} (workItemId agentPubkey : String) (hlcL hlcC : Int) (hlcNode : String)
  (claimantTier : Option Int)

/-- `try_claim` without Raft, with the stamp it drew: whether it returned `True`, and the board. -/
def tryClaimLocal (board : Board) : Bool × Board :=
  (match board.tryClaimDirect workItemId agentPubkey hlcL hlcC hlcNode claimantTier with
    | .ok (won, _) => won
    | .error _ => false,
    boardStep board (.tryClaim workItemId agentPubkey hlcL hlcC hlcNode claimantTier))

/-- `try_claim` on one node of a Raft cluster: the tier is checked on that node, then the
entry is applied on every replica and the caller gets its own result. -/
def tryClaimRaft (replicas : ι → Board) (caller : ι) : Bool × (ι → Board) :=
  let entry := RaftEntry.claimWorkItem workItemId agentPubkey hlcL hlcC hlcNode
  if (replicas caller).tierPermits workItemId claimantTier then
    (match entry.result (replicas caller) with
      | .ok (some won) => won
      | _ => false,
      fun replica => boardStep (replicas replica) entry.call)
  else (false, replicas)

/-- Both modes return the same, and every replica ends with the board of the local mode. -/
def ClaimModesAgree (nodes : Type) (board : Board) : Prop :=
  ∀ caller : nodes,
    (tryClaimRaft workItemId agentPubkey hlcL hlcC hlcNode claimantTier (fun _ => board) caller).1 =
        (tryClaimLocal workItemId agentPubkey hlcL hlcC hlcNode claimantTier board).1 ∧
      ∀ replica, (tryClaimRaft workItemId agentPubkey hlcL hlcC hlcNode claimantTier
          (fun _ => board) caller).2 replica =
        (tryClaimLocal workItemId agentPubkey hlcL hlcC hlcNode claimantTier board).2

/-- An unclaimed item above tier 0 that the claimant's tier reaches, and a stamp that fits. -/
def TierNeeded (board : Board) : Prop :=
  ∃ row, board.items.get? workItemId = some row ∧ row.claimedBy = none ∧ 0 < row.requiredTier ∧
    row.requiredTier ≤ claimantTier.getD 0 ∧
    FitsInt64 (hlcL * 1000000) ∧ FitsInt64 hlcL ∧ FitsInt64 hlcC

variable {board : Board} {row : WorkItem}

theorem tryClaim_missing (absent : board.items.get? workItemId = none) :
    board.tryClaimDirect workItemId agentPubkey hlcL hlcC hlcNode claimantTier = .ok (false, board) := by
  simp only [Board.tryClaimDirect, absent]

/-- A claim that is refused: the item is held, or its tier is not reached. -/
theorem tryClaim_refused (stored : board.items.get? workItemId = some row)
    (refused : row.claimedBy ≠ none ∨ claimantTier.getD 0 < row.requiredTier) :
    board.tryClaimDirect workItemId agentPubkey hlcL hlcC hlcNode claimantTier = .ok (false, board) := by
  simp only [Board.tryClaimDirect, stored]
  by_cases held : row.claimedBy ≠ none
  · rw [if_pos held]
  · rw [if_neg held, if_pos (refused.resolve_left held)]

theorem tryClaim_overflows (stored : board.items.get? workItemId = some row)
    (unclaimed : row.claimedBy = none) (tier : row.requiredTier ≤ claimantTier.getD 0)
    (overflows : ¬(FitsInt64 (hlcL * 1000000) ∧ FitsInt64 hlcL ∧ FitsInt64 hlcC)) :
    board.tryClaimDirect workItemId agentPubkey hlcL hlcC hlcNode claimantTier =
      .error .bindOverflow := by
  simp only [Board.tryClaimDirect, stored]
  rw [if_neg (not_not.mpr unclaimed), if_neg (not_lt.mpr tier), if_neg overflows]

theorem tryClaim_wins (stored : board.items.get? workItemId = some row)
    (unclaimed : row.claimedBy = none) (tier : row.requiredTier ≤ claimantTier.getD 0)
    (fits : FitsInt64 (hlcL * 1000000) ∧ FitsInt64 hlcL ∧ FitsInt64 hlcC) :
    ∃ next, board.tryClaimDirect workItemId agentPubkey hlcL hlcC hlcNode claimantTier =
      .ok (true, next) := by
  simp only [Board.tryClaimDirect, stored]
  rw [if_neg (not_not.mpr unclaimed), if_neg (not_lt.mpr tier), if_pos fits]
  exact ⟨_, rfl⟩

/-- The claimant's tier matters only as far as it reaches the item's. -/
theorem tryClaim_tier_congr (stored : board.items.get? workItemId = some row) (other : Option Int)
    (same : claimantTier.getD 0 < row.requiredTier ↔ other.getD 0 < row.requiredTier) :
    board.tryClaimDirect workItemId agentPubkey hlcL hlcC hlcNode claimantTier =
      board.tryClaimDirect workItemId agentPubkey hlcL hlcC hlcNode other := by
  simp only [Board.tryClaimDirect, stored, gt_iff_lt, same]

theorem tryClaimLocal_of_direct {won : Bool} {next : Board}
    (direct : board.tryClaimDirect workItemId agentPubkey hlcL hlcC hlcNode claimantTier =
      .ok (won, next)) :
    tryClaimLocal workItemId agentPubkey hlcL hlcC hlcNode claimantTier board = (won, next) := by
  simp only [tryClaimLocal, boardStep, direct]
  rfl

theorem tryClaimLocal_of_error {error : BoardError}
    (raised : board.tryClaimDirect workItemId agentPubkey hlcL hlcC hlcNode claimantTier =
      .error error) :
    tryClaimLocal workItemId agentPubkey hlcL hlcC hlcNode claimantTier board = (false, board) := by
  simp only [tryClaimLocal, boardStep, raised]
  rfl

/-- Past the tier check, a cluster claims as a local board does for a claimant of tier 0. -/
theorem tryClaimRaft_eq (caller : ι) :
    tryClaimRaft workItemId agentPubkey hlcL hlcC hlcNode claimantTier (fun _ => board) caller =
      if board.tierPermits workItemId claimantTier then
        ((tryClaimLocal workItemId agentPubkey hlcL hlcC hlcNode none board).1,
          fun _ => (tryClaimLocal workItemId agentPubkey hlcL hlcC hlcNode none board).2)
      else (false, fun _ => board) := by
  simp only [tryClaimRaft]
  split_ifs
  · congr 1
    simp only [RaftEntry.result, tryClaimLocal]
    cases board.tryClaimDirect workItemId agentPubkey hlcL hlcC hlcNode none <;> rfl
  · rfl

/-- An item out of the claimant's reach, or of tier 0, is claimed alike in both modes. -/
theorem claim_modes_of_row (stored : board.items.get? workItemId = some row)
    (tier : ¬(0 < row.requiredTier ∧ row.requiredTier ≤ claimantTier.getD 0)) (caller : ι) :
    tryClaimRaft workItemId agentPubkey hlcL hlcC hlcNode claimantTier (fun _ => board) caller =
      ((tryClaimLocal workItemId agentPubkey hlcL hlcC hlcNode claimantTier board).1,
        fun _ => (tryClaimLocal workItemId agentPubkey hlcL hlcC hlcNode claimantTier board).2) := by
  rw [tryClaimRaft_eq]
  by_cases reached : row.requiredTier ≤ claimantTier.getD 0
  · have lowest : row.requiredTier ≤ 0 := by
      by_contra above
      exact tier ⟨not_le.mp above, reached⟩
    have direct := tryClaim_tier_congr workItemId agentPubkey hlcL hlcC hlcNode none stored claimantTier
      (by simp only [Option.getD_none]; omega)
    have same : tryClaimLocal workItemId agentPubkey hlcL hlcC hlcNode none board =
        tryClaimLocal workItemId agentPubkey hlcL hlcC hlcNode claimantTier board := by
      simp only [tryClaimLocal, boardStep, direct]
    rw [if_pos (by simp [Board.tierPermits, stored, reached]), same]
  · have refused := tryClaim_refused workItemId agentPubkey hlcL hlcC hlcNode claimantTier stored
      (Or.inr (not_le.mp reached))
    rw [if_neg (by simpa [Board.tierPermits, stored] using reached),
      tryClaimLocal_of_direct workItemId agentPubkey hlcL hlcC hlcNode claimantTier refused]

/-- Above tier 0 the entry is refused on every replica, since it carries no tier. -/
theorem tryClaimRaft_above (stored : board.items.get? workItemId = some row)
    (above : 0 < row.requiredTier) (reached : row.requiredTier ≤ claimantTier.getD 0) (caller : ι) :
    tryClaimRaft workItemId agentPubkey hlcL hlcC hlcNode claimantTier (fun _ => board) caller =
      (false, fun _ => board) := by
  have lost := tryClaim_refused workItemId agentPubkey hlcL hlcC hlcNode none stored (Or.inr above)
  rw [tryClaimRaft_eq, if_pos (by simp [Board.tierPermits, stored, reached]),
    tryClaimLocal_of_direct workItemId agentPubkey hlcL hlcC hlcNode none lost]

theorem tryClaimLocal_unclaimable (stored : board.items.get? workItemId = some row)
    (reached : row.requiredTier ≤ claimantTier.getD 0)
    (unclaimable : ¬(row.claimedBy = none ∧
      FitsInt64 (hlcL * 1000000) ∧ FitsInt64 hlcL ∧ FitsInt64 hlcC)) :
    tryClaimLocal workItemId agentPubkey hlcL hlcC hlcNode claimantTier board = (false, board) := by
  by_cases unclaimed : row.claimedBy = none
  · exact tryClaimLocal_of_error workItemId agentPubkey hlcL hlcC hlcNode claimantTier
      (tryClaim_overflows workItemId agentPubkey hlcL hlcC hlcNode claimantTier stored
        unclaimed reached (fun fits => unclaimable ⟨unclaimed, fits⟩))
  · exact tryClaimLocal_of_direct workItemId agentPubkey hlcL hlcC hlcNode claimantTier
      (tryClaim_refused workItemId agentPubkey hlcL hlcC hlcNode claimantTier stored
        (Or.inl unclaimed))

theorem claim_modes_of_unneeded (unneeded : ¬TierNeeded workItemId hlcL hlcC claimantTier board)
    (caller : ι) :
    tryClaimRaft workItemId agentPubkey hlcL hlcC hlcNode claimantTier (fun _ => board) caller =
      ((tryClaimLocal workItemId agentPubkey hlcL hlcC hlcNode claimantTier board).1,
        fun _ => (tryClaimLocal workItemId agentPubkey hlcL hlcC hlcNode claimantTier board).2) := by
  cases stored : board.items.get? workItemId with
  | none =>
      have missing := fun tier =>
        tryClaimLocal_of_direct workItemId agentPubkey hlcL hlcC hlcNode tier
          (tryClaim_missing workItemId agentPubkey hlcL hlcC hlcNode tier stored)
      rw [tryClaimRaft_eq, missing none, missing claimantTier,
        if_pos (by simp [Board.tierPermits, stored])]
  | some row =>
      by_cases tier : 0 < row.requiredTier ∧ row.requiredTier ≤ claimantTier.getD 0
      · have unchanged := tryClaimLocal_unclaimable workItemId agentPubkey hlcL hlcC hlcNode
          claimantTier stored tier.2
          (fun claimable => unneeded ⟨row, stored, claimable.1, tier.1, tier.2, claimable.2⟩)
        rw [unchanged]
        exact tryClaimRaft_above workItemId agentPubkey hlcL hlcC hlcNode claimantTier stored
          tier.1 tier.2 caller
      · exact claim_modes_of_row workItemId agentPubkey hlcL hlcC hlcNode claimantTier stored tier
          caller

/-- Raft and direct claiming agree exactly when the claimant's tier is not what decides. -/
theorem claim_modes_agree_iff [Nonempty ι] (board : Board) :
    ClaimModesAgree workItemId agentPubkey hlcL hlcC hlcNode claimantTier ι board ↔
      ¬TierNeeded workItemId hlcL hlcC claimantTier board := by
  constructor
  · intro agree ⟨row, stored, unclaimed, above, reached, fits⟩
    rcases tryClaim_wins workItemId agentPubkey hlcL hlcC hlcNode claimantTier stored unclaimed
      reached fits with ⟨next, won⟩
    have same := (agree (Classical.arbitrary ι)).1
    rw [tryClaimRaft_above workItemId agentPubkey hlcL hlcC hlcNode claimantTier stored above reached,
      tryClaimLocal_of_direct workItemId agentPubkey hlcL hlcC hlcNode claimantTier won] at same
    cases same
  · intro unneeded caller
    rw [claim_modes_of_unneeded workItemId agentPubkey hlcL hlcC hlcNode claimantTier unneeded]
    exact ⟨rfl, fun _ => rfl⟩

end Claiming

/-- The sample item, one tier up. -/
def sampleTierItem : WorkItem :=
  { sampleItem with requiredTier := 1, requiredTier_range := by decide }

def sampleTierBoard : Board := run boardStep Board.empty
  [.postIntent "intent-1" "goal" 1, .postWorkItem sampleTierItem]

theorem claim_modes_agree_sample :
    ClaimModesAgree "item-1" "agent" 5 0 "node" (some 1) Bool sampleBoard := by
  apply (claim_modes_agree_iff (ι := Bool) "item-1" "agent" 5 0 "node" (some 1) sampleBoard).mpr
  intro ⟨row, stored, _, above, _⟩
  rw [sampleBoard_get?] at stored
  cases stored
  exact absurd above (by decide)

/-- A claimant of tier 1 wins an item of tier 1 on a local board and loses it on a cluster. -/
theorem claim_modes_disagree :
    ¬ClaimModesAgree "item-1" "agent" 5 0 "node" (some 1) Bool sampleTierBoard := by
  intro agree
  have same := (agree true).1
  exact absurd same (by decide +kernel)

/-! Completing. -/

inductive Mode where
  | direct
  | raft
  deriving DecidableEq

/-- A call of `complete_work_item` with `expected_owner` set to the requesting agent;
the completion time is a clock reading. -/
structure CompletionRequest where
  workItemId : String
  agentPubkey : String
  outputHash : String
  icpEnvelopeHash : String
  success : Bool
  completedAtNs : Int
  fits : FitsInt64 completedAtNs

namespace CompletionRequest

def entry (request : CompletionRequest) : RaftEntry :=
  .completeWorkItem request.workItemId request.outputHash request.icpEnvelopeHash request.success
    request.completedAtNs

/-- What reaches the board when the request is applied. -/
def call (request : CompletionRequest) : Mode → BoardCall
  | .direct =>
      .completeWorkItem request.workItemId request.outputHash request.icpEnvelopeHash
        request.success request.completedAtNs (some request.agentPubkey)
  | .raft => request.entry.call

def result (request : CompletionRequest) (board : Board) : Mode → Except BoardError Unit
  | .direct =>
      (board.completeWorkItemDirect request.workItemId request.outputHash request.icpEnvelopeHash
        request.success request.completedAtNs (some request.agentPubkey)).map (fun _ => ())
  | .raft => (request.entry.result board).map (fun _ => ())

end CompletionRequest

/-- Completion requests among any other calls on a board. -/
inductive BoardEvent where
  | call (call : BoardCall)
  | complete (mode : Mode) (request : CompletionRequest)

def eventStep (board : Board) : BoardEvent → Board
  | .call call => boardStep board call
  | .complete mode request => boardStep board (request.call mode)

def HeldBy (board : Board) (workItemId agentPubkey : String) : Prop :=
  ∃ row, board.items.get? workItemId = some row ∧ row.claimedBy = some agentPubkey

/-- The request changes a row only for the item's holder, and raises for anyone else. -/
def HolderOnly (board : Board) (mode : Mode) (request : CompletionRequest) : Prop :=
  ((∃ id, (boardStep board (request.call mode)).items.get? id ≠ board.items.get? id) →
      HeldBy board request.workItemId request.agentPubkey) ∧
    (¬HeldBy board request.workItemId request.agentPubkey →
      request.result board mode = .error .claimLost)

def HolderCompletes (start : Board) (events : List BoardEvent) : Prop :=
  ∀ front mode request rest, events = front ++ .complete mode request :: rest →
    HolderOnly (run eventStep start front) mode request

/-- A request through Raft is made by the holder at the time it is applied. -/
def ByHolder (board : Board) : BoardEvent → Prop
  | .complete .raft request => HeldBy board request.workItemId request.agentPubkey
  | .complete .direct _ => True
  | .call _ => True

theorem heldBy_of_completes {board : Board} {row : WorkItem} {id agentPubkey : String}
    (member : row ∈ board.items.rows) (met : Board.completes id (some agentPubkey) row = true) :
    HeldBy board id agentPubkey := by
  rcases (completes_iff id (some agentPubkey) row).mp met with ⟨keyed, none | owner⟩
  · cases none
  · exact ⟨row, keyed ▸ (Table.mem_rows board.items row).mp member, owner⟩

theorem holderOnly_direct (board : Board) (request : CompletionRequest) :
    HolderOnly board .direct request := by
  constructor
  · rintro ⟨id, changed⟩
    rw [CompletionRequest.call, completeWorkItem_get?] at changed
    cases stored : board.items.get? id with
    | none =>
        rw [stored] at changed
        exact absurd rfl changed
    | some row =>
        rw [stored, Option.map_some] at changed
        split_ifs at changed with met
        · exact heldBy_of_completes ((Table.get?_eq_some _ _ _).mp stored).1 met.2
        · exact absurd rfl changed
  · intro unheld
    have lost : board.items.rows.any
        (Board.completes request.workItemId (some request.agentPubkey)) = false := by
      rw [List.any_eq_false]
      intro row member met
      exact unheld (heldBy_of_completes member met)
    simp [CompletionRequest.result, Board.completeWorkItemDirect, request.fits, lost, Except.map]

/-- A completion entry is applied without asking whose it is. -/
theorem result_raft (board : Board) (request : CompletionRequest) :
    request.result board .raft = .ok () := by
  simp [CompletionRequest.result, CompletionRequest.entry, RaftEntry.result,
    Board.completeWorkItemDirect, request.fits, Except.map]

theorem holderOnly_iff (board : Board) (mode : Mode) (request : CompletionRequest) :
    HolderOnly board mode request ↔ ByHolder board (.complete mode request) := by
  cases mode with
  | direct =>
      constructor
      · intro _
        trivial
      · intro _
        exact holderOnly_direct board request
  | raft =>
      constructor
      · intro only
        by_contra unheld
        have raised := only.2 unheld
        rw [result_raft] at raised
        cases raised
      · intro held
        exact ⟨fun _ => held, fun unheld => absurd held unheld⟩

/-- Only holders complete items, and others are told so, exactly in the runs whose requests
through Raft are applied while their agent holds the item. -/
theorem holder_completes_iff (start : Board) (events : List BoardEvent) :
    HolderCompletes start events ↔ Admissible eventStep ByHolder start events := by
  rw [Run.admissible_iff_steps]
  constructor
  · intro only front event rest split
    cases event with
    | call call => trivial
    | complete mode request =>
        exact (holderOnly_iff _ mode request).mp (only front mode request rest split)
  · intro allowed front mode request rest split
    exact (holderOnly_iff _ mode request).mpr (allowed front _ rest split)

def sampleRequest (agentPubkey outputHash : String) : CompletionRequest :=
  ⟨"item-1", agentPubkey, outputHash, "env", true, 2, by decide⟩

/-- A lease runs out, another agent takes the item over and completes it. -/
def takenOver : List BoardEvent :=
  [.call (.postIntent "intent-1" "goal" 1), .call (.postWorkItem sampleItem),
    .call (.tryClaim "item-1" "agent-1" 5 0 "node" none),
    .call (.reclaimExpiredClaims (some 1) 6000000),
    .call (.tryClaim "item-1" "agent-2" 6 0 "node" none),
    .complete .raft (sampleRequest "agent-2" "out-2")]

/-- The first agent's late request is still applied. -/
theorem late_completion_applied :
    ¬HolderCompletes Board.empty (takenOver ++ [.complete .raft (sampleRequest "agent-1" "out-1")]) := by
  intro only
  have late := (only takenOver .raft (sampleRequest "agent-1" "out-1") [] rfl).2
  have holder : ((run eventStep Board.empty takenOver).items.get? "item-1").map WorkItem.claimedBy =
      some (some "agent-2") := by decide +kernel
  rw [result_raft] at late
  have unheld : ¬HeldBy (run eventStep Board.empty takenOver) "item-1" "agent-1" := by
    rintro ⟨row, stored, owner⟩
    rw [stored, Option.map_some, owner] at holder
    exact absurd holder (by decide)
  cases late unheld

end Gyza

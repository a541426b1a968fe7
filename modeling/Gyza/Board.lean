import Gyza.Lib.CanonJson
import Gyza.Lib.Table

/-! The shared work board (`gyza/blackboard.py`): intents and work items.

Every operation is one atomic step; clocks are arguments. An operation that
raises leaves the board as it was. -/

namespace Gyza

open CanonJson (Json)

def embeddingDim : Nat := 384

/-- The last three fields are what `__post_init__` checks. -/
structure WorkItem where
  id : String
  lineageRoot : String
  parentId : Option String
  description : String
  descEmbedding : List Float32
  reward : Float
  rewardUpdatedNs : Int
  requiredTier : Int
  inputHashes : List String
  outputSpec : List (String × Json)
  streamingOk : Bool
  claimedBy : Option String
  claimedAtNs : Option Int
  claimHlcL : Int
  claimHlcC : Int
  claimHlcNode : String
  completedAtNs : Option Int
  outputHash : Option String
  icpEnvelopeHash : Option String
  success : Option Bool
  createdAtNs : Int
  ttlNs : Int
  descEmbedding_shape : descEmbedding.length = embeddingDim
  reward_range : 0 ≤ reward ∧ reward ≤ 1
  requiredTier_range : 0 ≤ requiredTier ∧ requiredTier ≤ 3

structure HumanIntent where
  intentId : String
  goalSpecJson : String
  createdAtNs : Int

structure Board where
  intents : Table HumanIntent.intentId
  items : Table WorkItem.id

inductive BoardError where
  | bindOverflow
  | foreignKey
  | claimLost
  deriving DecidableEq

/-- `(completed_at_ns, output_hash, icp_envelope_hash, success)`. -/
structure Completion where
  completedAtNs : Option Int
  outputHash : Option String
  icpEnvelopeHash : Option String
  success : Option Bool
  deriving DecidableEq

namespace WorkItem

def completion (item : WorkItem) : Completion :=
  ⟨item.completedAtNs, item.outputHash, item.icpEnvelopeHash, item.success⟩

def withClaim (item : WorkItem) (agentPubkey : String) (hlcL hlcC : Int) (hlcNode : String) :
    WorkItem :=
  { item with
    claimedBy := some agentPubkey
    claimedAtNs := some (hlcL * 1000000)
    claimHlcL := hlcL
    claimHlcC := hlcC
    claimHlcNode := hlcNode }

def withCompletion (item : WorkItem) (outputHash icpEnvelopeHash : String) (success : Bool)
    (completedAtNs : Int) : WorkItem :=
  { item with
    completedAtNs := some completedAtNs
    outputHash := some outputHash
    icpEnvelopeHash := some icpEnvelopeHash
    success := some success }

/-- `release_claim` also resets the claim's clock. -/
def released (item : WorkItem) : WorkItem :=
  { item with
    claimedBy := none
    claimedAtNs := none
    claimHlcL := 0
    claimHlcC := 0
    claimHlcNode := "" }

/-- `reclaim_expired_claims` leaves the claim's clock in place. -/
def reclaimed (item : WorkItem) : WorkItem :=
  { item with
    claimedBy := none
    claimedAtNs := none }

@[simp] theorem withClaim_id (item : WorkItem) (agentPubkey : String) (hlcL hlcC : Int)
    (hlcNode : String) : (item.withClaim agentPubkey hlcL hlcC hlcNode).id = item.id := rfl

@[simp] theorem withCompletion_id (item : WorkItem) (outputHash icpEnvelopeHash : String)
    (success : Bool) (completedAtNs : Int) :
    (item.withCompletion outputHash icpEnvelopeHash success completedAtNs).id = item.id := rfl

@[simp] theorem released_id (item : WorkItem) : item.released.id = item.id := rfl

@[simp] theorem reclaimed_id (item : WorkItem) : item.reclaimed.id = item.id := rfl

/-- Every integer column can hold its value. -/
def Binds (item : WorkItem) : Prop :=
  FitsInt64 item.rewardUpdatedNs ∧ FitsInt64 item.requiredTier ∧
    (∀ ns ∈ item.claimedAtNs, FitsInt64 ns) ∧ FitsInt64 item.claimHlcL ∧
    FitsInt64 item.claimHlcC ∧ (∀ ns ∈ item.completedAtNs, FitsInt64 ns) ∧
    FitsInt64 item.createdAtNs ∧ FitsInt64 item.ttlNs

instance (item : WorkItem) : Decidable item.Binds := inferInstanceAs (Decidable (_ ∧ _))

end WorkItem

namespace Board

def empty : Board := ⟨Table.empty, Table.empty⟩

def postIntentDirect (board : Board) (intentId goalSpecJson : String) (createdAtNs : Int) :
    Except BoardError Board :=
  if FitsInt64 createdAtNs then
    .ok { board with intents := board.intents.insertOrIgnore ⟨intentId, goalSpecJson, createdAtNs⟩ }
  else .error .bindOverflow

/-- `INSERT OR IGNORE`; the foreign key is checked only for a row that is inserted. -/
def postWorkItemDirect (board : Board) (item : WorkItem) : Except BoardError Board :=
  if item.Binds then
    if (board.items.get? item.id).isSome then .ok board
    else if (board.intents.get? item.lineageRoot).isSome then
      .ok { board with items := board.items.insertOrIgnore item }
    else .error .foreignKey
  else .error .bindOverflow

def tryClaimDirect (board : Board) (workItemId agentPubkey : String) (hlcL hlcC : Int)
    (hlcNode : String) (claimantTier : Option Int) : Except BoardError (Bool × Board) :=
  match board.items.get? workItemId with
  | none => .ok (false, board)
  | some row =>
      if row.claimedBy ≠ none then .ok (false, board)
      else if row.requiredTier > claimantTier.getD 0 then .ok (false, board)
      else if FitsInt64 (hlcL * 1000000) ∧ FitsInt64 hlcL ∧ FitsInt64 hlcC then
        .ok (true, { board with
          items := board.items.update
            (fun item => item.id = workItemId ∧ item.claimedBy = none)
            (fun item => item.withClaim agentPubkey hlcL hlcC hlcNode)
            (fun item => item.withClaim_id agentPubkey hlcL hlcC hlcNode) })
      else .error .bindOverflow

/-- The lexicographic order of `(l, c, node)`. -/
def hlcLe (first second : Int × Int × String) : Prop :=
  first.1 < second.1 ∨ first.1 = second.1 ∧
    (first.2.1 < second.2.1 ∨ first.2.1 = second.2.1 ∧ first.2.2 ≤ second.2.2)

instance (first second : Int × Int × String) : Decidable (hlcLe first second) :=
  inferInstanceAs (Decidable (_ ∨ _))

def mergeClaimDirect (board : Board) (workItemId agentPubkey : String) (hlcL hlcC : Int)
    (hlcNode : String) : Except BoardError (Bool × Board) :=
  match board.items.get? workItemId with
  | none => .ok (false, board)
  | some row =>
      if row.completedAtNs ≠ none then .ok (false, board)
      else if hlcLe (hlcL, hlcC, hlcNode) (row.claimHlcL, row.claimHlcC, row.claimHlcNode) then
        .ok (false, board)
      else if FitsInt64 (hlcL * 1000000) ∧ FitsInt64 hlcL ∧ FitsInt64 hlcC then
        .ok (true, { board with
          items := board.items.update (fun item => item.id = workItemId)
            (fun item => item.withClaim agentPubkey hlcL hlcC hlcNode)
            (fun item => item.withClaim_id agentPubkey hlcL hlcC hlcNode) })
      else .error .bindOverflow

def mergeCompletionDirect (board : Board) (workItemId outputHash icpEnvelopeHash : String)
    (success : Bool) (completedAtNs : Int) : Except BoardError (Bool × Board) :=
  match board.items.get? workItemId with
  | none => .ok (false, board)
  | some row =>
      if row.completedAtNs ≠ none then .ok (false, board)
      else if FitsInt64 completedAtNs then
        .ok (true, { board with
          items := board.items.update
            (fun item => item.id = workItemId ∧ item.completedAtNs = none)
            (fun item => item.withCompletion outputHash icpEnvelopeHash success completedAtNs)
            (fun item => item.withCompletion_id outputHash icpEnvelopeHash success
              completedAtNs) })
      else .error .bindOverflow

/-- The `WHERE` clause of `complete_work_item_direct`. -/
def completes (workItemId : String) (expectedOwner : Option String) (item : WorkItem) : Bool :=
  item.id = workItemId ∧ (expectedOwner = none ∨ item.claimedBy = expectedOwner)

def completeWorkItemDirect (board : Board) (workItemId outputHash icpEnvelopeHash : String)
    (success : Bool) (completedAtNs : Int) (expectedOwner : Option String) :
    Except BoardError Board :=
  if FitsInt64 completedAtNs then
    if expectedOwner ≠ none ∧ board.items.rows.any (completes workItemId expectedOwner) = false then
      .error .claimLost
    else
      .ok { board with
        items := board.items.update (completes workItemId expectedOwner)
          (fun item => item.withCompletion outputHash icpEnvelopeHash success completedAtNs)
          (fun item => item.withCompletion_id outputHash icpEnvelopeHash success completedAtNs) }
  else .error .bindOverflow

/-- The `WHERE` clause of `release_claim`. -/
def releasable (workItemId : String) (item : WorkItem) : Bool :=
  item.id = workItemId ∧ item.claimedBy ≠ none ∧ item.completedAtNs = none

def releaseClaim (board : Board) (workItemId : String) : Bool × Board :=
  (board.items.rows.any (releasable workItemId),
    { board with
      items := board.items.update (releasable workItemId) WorkItem.released WorkItem.released_id })

def claimLeaseNs : Int := 900 * 1000000000

def leaseExpired (cutoff : Int) (item : WorkItem) : Bool :=
  item.claimedBy ≠ none ∧ item.completedAtNs = none ∧ item.claimedAtNs.any (· < cutoff)

/-- One `UPDATE` of the reclaiming loop, and whether it matched. -/
def reclaimOne (state : List String × Board) (selected : WorkItem) : List String × Board :=
  let matching : WorkItem → Bool := fun item =>
    item.id = selected.id ∧ item.claimedBy = selected.claimedBy ∧ item.completedAtNs = none
  let next := { state.2 with
    items := state.2.items.update matching WorkItem.reclaimed WorkItem.reclaimed_id }
  (if state.2.items.rows.any matching then state.1 ++ [selected.id] else state.1, next)

def reclaimExpiredClaims (board : Board) (leaseNs : Option Int) (nowNs : Int) :
    Except BoardError (List String × Board) :=
  let cutoff := nowNs - leaseNs.getD claimLeaseNs
  if FitsInt64 cutoff then
    .ok ((board.items.rows.filter (leaseExpired cutoff)).foldl reclaimOne ([], board))
  else .error .bindOverflow

def childrenOf (board : Board) (parentId : String) : List WorkItem :=
  (board.items.rows.filter (fun item => item.parentId = some parentId)).insertionSort
    (fun first second => first.createdAtNs ≤ second.createdAtNs)

/-- `not item.parent_id`: no parent, or an empty one. -/
def pendingSiblings (board : Board) (item : WorkItem) : List String :=
  match item.parentId with
  | none => []
  | some "" => []
  | some parentId =>
      ((board.childrenOf parentId).filter
        (fun child => child.id ≠ item.id ∧ child.completedAtNs = none)).map WorkItem.id

def isCombine (item : WorkItem) : Bool :=
  match item.outputSpec.lookup "kind" with
  | some (.str "combine") => true
  | _ => false

/-- The dependency gate: a combiner waits for its siblings. -/
def servable (board : Board) (item : WorkItem) : Bool :=
  !isCombine item || (board.pendingSiblings item).isEmpty

/-- `ORDER BY reward DESC, created_at_ns ASC`. -/
def servedBefore (first second : WorkItem) : Prop :=
  second.reward < first.reward ∨
    ¬ first.reward < second.reward ∧ first.createdAtNs ≤ second.createdAtNs

instance : DecidableRel servedBefore := fun _ _ => inferInstanceAs (Decidable (_ ∨ _))

/-- `LIMIT ?`, where a negative limit is none. -/
def limited (limit : Option Int) (items : List WorkItem) : List WorkItem :=
  match limit with
  | none => items
  | some bound => if bound < 0 then items else items.take bound.toNat

def getUnclaimed (board : Board) (minReward : Float) (tier : Int) (limit : Option Int)
    (nowNs : Int) : Except BoardError (List WorkItem) :=
  if FitsInt64 tier ∧ FitsInt64 nowNs ∧ (∀ bound ∈ limit, FitsInt64 bound) then
    let rows := (board.items.rows.filter (fun item => item.claimedBy = none ∧
      minReward ≤ item.reward ∧ item.requiredTier ≤ tier ∧
        nowNs < item.createdAtNs + item.ttlNs)).insertionSort servedBefore
    .ok ((limited limit rows).filter board.servable)
  else .error .bindOverflow

/-! Only `post_intent_direct` writes the intents. -/

theorem postWorkItemDirect_intents {board next : Board} {item : WorkItem}
    (ok : board.postWorkItemDirect item = .ok next) :
    item.Binds ∧ next.intents = board.intents := by
  unfold postWorkItemDirect at ok
  split_ifs at ok with binds held known
  · cases ok
    exact ⟨binds, rfl⟩
  · cases ok
    exact ⟨binds, rfl⟩

theorem tryClaimDirect_intents {board next : Board} {workItemId agentPubkey : String}
    {hlcL hlcC : Int} {hlcNode : String} {claimantTier : Option Int} {won : Bool}
    (ok : board.tryClaimDirect workItemId agentPubkey hlcL hlcC hlcNode claimantTier =
      .ok (won, next)) :
    next.intents = board.intents ∧
      (won = true → FitsInt64 (hlcL * 1000000) ∧ FitsInt64 hlcL ∧ FitsInt64 hlcC) := by
  unfold tryClaimDirect at ok
  split at ok
  · cases ok
    exact ⟨rfl, Bool.noConfusion⟩
  · split_ifs at ok with held above fits
    · cases ok
      exact ⟨rfl, Bool.noConfusion⟩
    · cases ok
      exact ⟨rfl, Bool.noConfusion⟩
    · cases ok
      exact ⟨rfl, fun _ => fits⟩

theorem mergeClaimDirect_intents {board next : Board} {workItemId agentPubkey : String}
    {hlcL hlcC : Int} {hlcNode : String} {updated : Bool}
    (ok : board.mergeClaimDirect workItemId agentPubkey hlcL hlcC hlcNode = .ok (updated, next)) :
    next.intents = board.intents := by
  unfold mergeClaimDirect at ok
  split at ok
  · cases ok
    rfl
  · split_ifs at ok <;> cases ok <;> rfl

theorem mergeCompletionDirect_intents {board next : Board}
    {workItemId outputHash icpEnvelopeHash : String} {success : Bool} {completedAtNs : Int}
    {updated : Bool} (ok : board.mergeCompletionDirect workItemId outputHash icpEnvelopeHash success
      completedAtNs = .ok (updated, next)) :
    next.intents = board.intents := by
  unfold mergeCompletionDirect at ok
  split at ok
  · cases ok
    rfl
  · split_ifs at ok <;> cases ok <;> rfl

theorem completeWorkItemDirect_intents {board next : Board}
    {workItemId outputHash icpEnvelopeHash : String} {success : Bool} {completedAtNs : Int}
    {expectedOwner : Option String} (ok : board.completeWorkItemDirect workItemId outputHash
      icpEnvelopeHash success completedAtNs expectedOwner = .ok next) :
    next.intents = board.intents := by
  unfold completeWorkItemDirect at ok
  split_ifs at ok
  cases ok
  rfl

end Board

/-- The eight operations that write the board. -/
inductive BoardCall where
  | postIntent (intentId goalSpecJson : String) (createdAtNs : Int)
  | postWorkItem (item : WorkItem)
  | tryClaim (workItemId agentPubkey : String) (hlcL hlcC : Int) (hlcNode : String)
      (claimantTier : Option Int)
  | mergeClaim (workItemId agentPubkey : String) (hlcL hlcC : Int) (hlcNode : String)
  | mergeCompletion (workItemId outputHash icpEnvelopeHash : String) (success : Bool)
      (completedAtNs : Int)
  | completeWorkItem (workItemId outputHash icpEnvelopeHash : String) (success : Bool)
      (completedAtNs : Int) (expectedOwner : Option String)
  | releaseClaim (workItemId : String)
  | reclaimExpiredClaims (leaseNs : Option Int) (nowNs : Int)

/-- The board a call leaves, whether it returned or raised. -/
def boardStep (board : Board) : BoardCall → Board
  | .postIntent intentId goalSpecJson createdAtNs =>
      (board.postIntentDirect intentId goalSpecJson createdAtNs).toOption.getD board
  | .postWorkItem item => (board.postWorkItemDirect item).toOption.getD board
  | .tryClaim workItemId agentPubkey hlcL hlcC hlcNode claimantTier =>
      ((board.tryClaimDirect workItemId agentPubkey hlcL hlcC hlcNode claimantTier).toOption.map
        Prod.snd).getD board
  | .mergeClaim workItemId agentPubkey hlcL hlcC hlcNode =>
      ((board.mergeClaimDirect workItemId agentPubkey hlcL hlcC hlcNode).toOption.map
        Prod.snd).getD board
  | .mergeCompletion workItemId outputHash icpEnvelopeHash success completedAtNs =>
      ((board.mergeCompletionDirect workItemId outputHash icpEnvelopeHash success
        completedAtNs).toOption.map Prod.snd).getD board
  | .completeWorkItem workItemId outputHash icpEnvelopeHash success completedAtNs expectedOwner =>
      (board.completeWorkItemDirect workItemId outputHash icpEnvelopeHash success completedAtNs
        expectedOwner).toOption.getD board
  | .releaseClaim workItemId => (board.releaseClaim workItemId).2
  | .reclaimExpiredClaims leaseNs nowNs =>
      ((board.reclaimExpiredClaims leaseNs nowNs).toOption.map Prod.snd).getD board

end Gyza

import Gyza.Board
import Gyza.Lib.Dict
import Gyza.Lib.Run

/-! Boards that sync by gossip (`gyza/network/network_blackboard.py`): the hybrid
logical clock, the deltas nodes publish, and how a node applies one.

Physical clocks are arguments. Deltas carry the embedding and the JSON columns
of a work item decoded. -/

namespace Gyza

open CanonJson (Json)

/-- `HLC` of `gyza/schema.py`. -/
structure Hlc where
  nodeId : String
  l : Int := 0
  c : Int := 0
  deriving DecidableEq

namespace Hlc

def now (clock : Hlc) (pt : Int) : (Int × Int × String) × Hlc :=
  let l := max clock.l pt
  let c := if l = clock.l then clock.c + 1 else 0
  ((l, c, clock.nodeId), { clock with l := l, c := c })

def recv (clock : Hlc) (pt l c : Int) (_node : String) : Hlc :=
  let merged := max (max clock.l l) pt
  { clock with
    l := merged
    c :=
      if merged = clock.l ∧ merged = l then max clock.c c + 1
      else if merged = clock.l then clock.c + 1
      else if merged = l then c + 1
      else 0 }

end Hlc

structure WorkItemRecord where
  id : String
  lineageRoot : String
  parentId : String
  description : String
  descEmbedding : List Float32
  reward : Float
  rewardUpdatedNs : Int
  requiredTier : Int
  inputHashes : List String
  outputSpec : List (String × Json)
  streamingOk : Bool
  createdAtNs : Int
  ttlNs : Int

structure ClaimUpdate where
  workItemId : String
  agentPubkey : String
  compositorPubkey : String
  hlcL : Int
  hlcC : Int
  hlcNode : String
  deriving DecidableEq

structure CompletionRecord where
  workItemId : String
  outputHash : String
  icpEnvelopeHash : String
  success : Bool
  completedAtNs : Int
  completedByCompositorPubkey : String
  deriving DecidableEq

/-- An `IntentRecord` has the columns of the stored intent. -/
structure BlackboardDelta where
  senderCompositorPubkey : String
  newIntents : List HumanIntent := []
  newItems : List WorkItemRecord := []
  claimUpdates : List ClaimUpdate := []
  completions : List CompletionRecord := []

/-- `none` is the `ValueError` of a malformed record. -/
def recordToWorkItem (record : WorkItemRecord) : Option WorkItem :=
  if shape : record.descEmbedding.length = embeddingDim then
    if range : 0 ≤ record.reward ∧ record.reward ≤ 1 then
      if tier : 0 ≤ record.requiredTier ∧ record.requiredTier ≤ 3 then
        some
          { id := record.id
            lineageRoot := record.lineageRoot
            parentId := if record.parentId = "" then none else some record.parentId
            description := record.description
            descEmbedding := record.descEmbedding
            reward := record.reward
            rewardUpdatedNs := record.rewardUpdatedNs
            requiredTier := record.requiredTier
            inputHashes := record.inputHashes
            outputSpec := record.outputSpec
            streamingOk := record.streamingOk
            claimedBy := none
            claimedAtNs := none
            claimHlcL := 0
            claimHlcC := 0
            claimHlcNode := ""
            completedAtNs := none
            outputHash := none
            icpEnvelopeHash := none
            success := none
            createdAtNs := record.createdAtNs
            ttlNs := record.ttlNs
            descEmbedding_shape := shape
            reward_range := range
            requiredTier_range := tier }
      else none
    else none
  else none

def workItemToRecord (item : WorkItem) : WorkItemRecord :=
  { id := item.id
    lineageRoot := item.lineageRoot
    parentId := item.parentId.getD ""
    description := item.description
    descEmbedding := item.descEmbedding
    reward := item.reward
    rewardUpdatedNs := item.rewardUpdatedNs
    requiredTier := item.requiredTier
    inputHashes := item.inputHashes
    outputSpec := item.outputSpec
    streamingOk := item.streamingOk
    createdAtNs := item.createdAtNs
    ttlNs := item.ttlNs }

/-- An item as a peer decodes it: unclaimed, uncompleted, an empty parent read as none. -/
def WorkItem.gossiped (item : WorkItem) : WorkItem :=
  { item with
    parentId := if item.parentId = some "" then none else item.parentId
    claimedBy := none
    claimedAtNs := none
    claimHlcL := 0
    claimHlcC := 0
    claimHlcNode := ""
    completedAtNs := none
    outputHash := none
    icpEnvelopeHash := none
    success := none }

theorem recordToWorkItem_workItemToRecord (item : WorkItem) :
    recordToWorkItem (workItemToRecord item) = some item.gossiped := by
  have parent : (if item.parentId.getD "" = "" then none else some (item.parentId.getD "")) =
      if item.parentId = some "" then none else item.parentId := by
    cases item.parentId with
    | none => simp
    | some parentId => simp
  have shape : (workItemToRecord item).descEmbedding.length = embeddingDim := item.descEmbedding_shape
  have range : 0 ≤ (workItemToRecord item).reward ∧ (workItemToRecord item).reward ≤ 1 :=
    item.reward_range
  have tier : 0 ≤ (workItemToRecord item).requiredTier ∧ (workItemToRecord item).requiredTier ≤ 3 :=
    item.requiredTier_range
  rw [recordToWorkItem, dif_pos shape, dif_pos range, dif_pos tier]
  congr 1
  unfold WorkItem.gossiped
  congr 1

theorem WorkItem.gossiped_binds {item : WorkItem} (binds : item.Binds) : item.gossiped.Binds := by
  rcases binds with ⟨updated, tier, _, _, _, _, created, ttl⟩
  exact ⟨updated, tier, by simp [gossiped], by simp [gossiped, FitsInt64],
    by simp [gossiped, FitsInt64], by simp [gossiped], created, ttl⟩

/-- A `NetworkBlackboard` with gossip attached and no Raft node. -/
structure NetNode where
  board : Board
  gossipHlc : Hlc
  intentCreator : Dict String String := Dict.empty
  lineageIntentCache : Dict String HumanIntent := Dict.empty

/-- What `_apply_delta` does, one after the other; a claim knows its place in the delta. -/
inductive DeltaAction where
  | intent (record : HumanIntent)
  | item (record : WorkItemRecord)
  | claim (update : ClaimUpdate) (place : Nat)
  | completion (record : CompletionRecord)

def BlackboardDelta.actions (delta : BlackboardDelta) : List DeltaAction :=
  delta.newIntents.map .intent ++ delta.newItems.map .item ++
    delta.claimUpdates.zipIdx.map (fun update => .claim update.1 update.2) ++
    delta.completions.map .completion

namespace NetNode

def applyIntent (sender : String) (node : NetNode) (record : HumanIntent) :
    Except BoardError NetNode := do
  let board ← node.board.postIntentDirect record.intentId record.goalSpecJson record.createdAtNs
  pure
    { node with
      board := board
      intentCreator :=
        if sender = "" then node.intentCreator
        else node.intentCreator.setdefault record.intentId sender }

/-- A failed insert is logged and skipped. -/
def applyItem (node : NetNode) (record : WorkItemRecord) : NetNode :=
  match recordToWorkItem record with
  | none => node
  | some item => { node with board := (node.board.postWorkItemDirect item).toOption.getD node.board }

/-- A merged claim also advances the clock, which reads the physical time `pt`. -/
def applyClaim (pt : Int) (node : NetNode) (update : ClaimUpdate) : Except BoardError NetNode := do
  let (updated, board) ← node.board.mergeClaimDirect update.workItemId update.agentPubkey
    update.hlcL update.hlcC update.hlcNode
  pure
    { node with
      board := board
      gossipHlc :=
        if updated then node.gossipHlc.recv pt update.hlcL update.hlcC update.hlcNode
        else node.gossipHlc }

def applyCompletion (node : NetNode) (record : CompletionRecord) : Except BoardError NetNode := do
  let (_, board) ← node.board.mergeCompletionDirect record.workItemId record.outputHash
    record.icpEnvelopeHash record.success record.completedAtNs
  pure { node with board := board }

def applyAction (sender : String) (readings : Nat → Int) (node : NetNode) :
    DeltaAction → Except BoardError NetNode
  | .intent record => node.applyIntent sender record
  | .item record => .ok (node.applyItem record)
  | .claim update place => node.applyClaim (readings place) update
  | .completion record => node.applyCompletion record

/-- What an action that does not raise can do: an intent is stored and may add a creator, a
merged claim advances the clock, and all else stays on the items of the board. -/
theorem applyAction_cases {sender : String} {readings : Nat → Int} {node next : NetNode}
    {action : DeltaAction} (ok : node.applyAction sender readings action = .ok next) :
    (∃ record board creators, action = .intent record ∧ FitsInt64 record.createdAtNs ∧
      board.intents = node.board.intents.insertOrIgnore record ∧
      next = { node with board := board, intentCreator := creators }) ∨
    (∃ update place board, action = .claim update place ∧
      node.board.mergeClaimDirect update.workItemId update.agentPubkey update.hlcL update.hlcC
        update.hlcNode = .ok (true, board) ∧
      next =
        { node with
          board := board
          gossipHlc := node.gossipHlc.recv (readings place) update.hlcL update.hlcC
            update.hlcNode }) ∨
    ((∀ record, action ≠ .intent record) ∧
      ∃ board, board.intents = node.board.intents ∧ next = { node with board := board }) := by
  cases action with
  | intent record =>
      by_cases fits : FitsInt64 record.createdAtNs
      · simp only [applyAction, applyIntent, Board.postIntentDirect, if_pos fits] at ok
        cases ok
        exact .inl ⟨record, _, _, rfl, fits, rfl, rfl⟩
      · simp only [applyAction, applyIntent, Board.postIntentDirect, if_neg fits] at ok
        cases ok
  | item record =>
      simp only [applyAction, applyItem] at ok
      cases ok
      refine .inr (.inr ⟨fun _ => DeltaAction.noConfusion, ?_⟩)
      split
      · exact ⟨node.board, rfl, rfl⟩
      · rename_i item decoded
        refine ⟨_, ?_, rfl⟩
        cases result : node.board.postWorkItemDirect item with
        | ok board => exact (Board.postWorkItemDirect_intents result).2
        | error error => rfl
  | claim update place =>
      simp only [applyAction, applyClaim, bind, Except.bind, pure, Except.pure] at ok
      split at ok
      · cases ok
      · rename_i outcome result
        rcases outcome with ⟨updated, board⟩
        cases ok
        cases updated with
        | true => exact .inr (.inl ⟨update, place, board, rfl, result, rfl⟩)
        | false =>
            exact .inr (.inr ⟨fun _ => DeltaAction.noConfusion, board,
              Board.mergeClaimDirect_intents result, rfl⟩)
  | completion record =>
      simp only [applyAction, applyCompletion, bind, Except.bind, pure, Except.pure] at ok
      split at ok
      · cases ok
      · rename_i outcome result
        cases ok
        exact .inr (.inr ⟨fun _ => DeltaAction.noConfusion, _,
          Board.mergeCompletionDirect_intents result, rfl⟩)

/-- The node `_apply_delta` leaves; an exception ends it early and is logged by its caller.
`readings` are the physical times the clock reads, by place of the claim. -/
def applyDelta (node : NetNode) (readings : Nat → Int) (delta : BlackboardDelta) : NetNode :=
  if delta.senderCompositorPubkey = node.gossipHlc.nodeId then node
  else (Run.untilError (applyAction delta.senderCompositorPubkey readings) node delta.actions).1

/-! Local calls; each returns the node and the delta it publishes, stamped with the sender. -/

inductive PostError where
  | emptyIntentId
  | unknownLineage
  | board (error : BoardError)
  deriving DecidableEq

/-- The stored and the published record each read the clock. -/
def postIntent (node : NetNode) (intentId goalSpecJson : String) (createdAtNs publishedAtNs : Int) :
    Except PostError (NetNode × BlackboardDelta) :=
  if intentId = "" then .error .emptyIntentId
  else
    match node.board.postIntentDirect intentId goalSpecJson createdAtNs with
    | .error error => .error (.board error)
    | .ok board =>
        .ok
          ({ node with
              board := board
              intentCreator := node.intentCreator.set intentId node.gossipHlc.nodeId },
            { senderCompositorPubkey := node.gossipHlc.nodeId
              newIntents := [⟨intentId, goalSpecJson, publishedAtNs⟩] })

/-- The lineage intent of an item as a record, cached. -/
def lineageIntentRecords (node : NetNode) (lineageRoot : String) : List HumanIntent × NetNode :=
  match node.lineageIntentCache.lookup lineageRoot with
  | some hit => ([hit], node)
  | none =>
      match node.board.intents.get? lineageRoot with
      | none => ([], node)
      | some row =>
          ([row], { node with lineageIntentCache := node.lineageIntentCache.set lineageRoot row })

def postWorkItem (node : NetNode) (item : WorkItem) : Except PostError (NetNode × BlackboardDelta) :=
  if (node.board.intents.get? item.lineageRoot).isNone then .error .unknownLineage
  else
    match node.board.postWorkItemDirect item with
    | .error error => .error (.board error)
    | .ok board =>
        let posted := { node with board := board }
        let lineage := posted.lineageIntentRecords item.lineageRoot
        .ok (lineage.2,
          { senderCompositorPubkey := node.gossipHlc.nodeId
            newIntents := lineage.1
            newItems := [workItemToRecord item] })

/-- `try_claim` with the agent's own clock, which reads the physical time `pt`. -/
def tryClaim (node : NetNode) (workItemId agentPubkey : String) (hlc : Hlc) (pt : Int)
    (claimantTier : Option Int) : Hlc × Except BoardError (NetNode × Option BlackboardDelta) :=
  let drawn := hlc.now pt
  (drawn.2, do
    let (won, board) ← node.board.tryClaimDirect workItemId agentPubkey drawn.1.1 drawn.1.2.1
      drawn.1.2.2 claimantTier
    pure
      ({ node with board := board },
        if won then
          some
            { senderCompositorPubkey := node.gossipHlc.nodeId
              claimUpdates := [⟨workItemId, agentPubkey, node.gossipHlc.nodeId, drawn.2.l, drawn.2.c,
                drawn.2.nodeId⟩] }
        else none))

def completeWorkItem (node : NetNode) (workItemId outputHash icpEnvelopeHash : String)
    (success : Bool) (completedAtNs publishedAtNs : Int) (expectedOwner : Option String) :
    Except BoardError (NetNode × BlackboardDelta) := do
  let board ← node.board.completeWorkItemDirect workItemId outputHash icpEnvelopeHash success
    completedAtNs expectedOwner
  pure
    ({ node with board := board },
      { senderCompositorPubkey := node.gossipHlc.nodeId
        completions := [⟨workItemId, outputHash, icpEnvelopeHash, success, publishedAtNs,
          node.gossipHlc.nodeId⟩] })

/-- The free-rider filter on one item: items of unknown creators are kept, and so are those
on which the filter raises (`none`). -/
def keepsItem (node : NetNode) (keep : String → Option Bool) (item : WorkItem) : Bool :=
  match node.intentCreator.lookup item.lineageRoot with
  | none => true
  | some creator => (keep creator).getD true

def getUnclaimed (node : NetNode) (keep : Option (String → Option Bool)) (minReward : Float)
    (tier : Int) (limit : Option Int) (nowNs : Int) : Except BoardError (List WorkItem) := do
  let items ← node.board.getUnclaimed minReward tier limit nowNs
  match keep with
  | none => pure items
  | some filter => pure (items.filter (node.keepsItem filter))

end NetNode

end Gyza

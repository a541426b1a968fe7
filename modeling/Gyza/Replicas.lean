import Gyza.ClaimMerge

/-! Replicas that apply the same gossip in different orders.

Claims are last-writer-wins until the first completion arrives, which is kept;
what a row ends with is the item, the greatest claim before that completion,
and the completion. -/

namespace Gyza

/-- The deltas a node publishes, one mutation each; a work item comes with its lineage intent. -/
inductive Mutation where
  | intent (record : HumanIntent)
  | item (lineage : HumanIntent) (record : WorkItemRecord)
  | claim (update : ClaimUpdate)
  | completion (record : CompletionRecord)

namespace Mutation

def delta (sender : String) : Mutation → BlackboardDelta
  | .intent record => { senderCompositorPubkey := sender, newIntents := [record] }
  | .item lineage record =>
      { senderCompositorPubkey := sender, newIntents := [lineage], newItems := [record] }
  | .claim update => { senderCompositorPubkey := sender, claimUpdates := [update] }
  | .completion record => { senderCompositorPubkey := sender, completions := [record] }

/-- What the sender stored before it published: every integer fits its column, and
an item is well-formed and comes with the intent it is rooted in. -/
def Honest : Mutation → Prop
  | .intent record => FitsInt64 record.createdAtNs
  | .item lineage record =>
      FitsInt64 lineage.createdAtNs ∧ lineage.intentId = record.lineageRoot ∧
        ∃ item, recordToWorkItem record = some item ∧ item.Binds
  | .claim update => update.Binds
  | .completion record => FitsInt64 record.completedAtNs

/-- The item a claim or a completion is about. -/
def about : Mutation → Option String
  | .intent _ => none
  | .item _ _ => none
  | .claim update => some update.workItemId
  | .completion record => some record.workItemId

end Mutation

def CompletionRecord.content (record : CompletionRecord) : Completion :=
  ⟨some record.completedAtNs, some record.outputHash, some record.icpEnvelopeHash,
    some record.success⟩

def WorkItem.writeCompletion (item : WorkItem) (record : CompletionRecord) : WorkItem :=
  item.withCompletion record.outputHash record.icpEnvelopeHash record.success record.completedAtNs

/-- What `merge_completion_direct` does to the row it is about. -/
def WorkItem.mergeCompletion (item : WorkItem) (record : CompletionRecord) : WorkItem :=
  if item.completedAtNs = none then item.writeCompletion record else item

/-- One delta, seen from the row of one item. -/
def rowStep (id : String) (row : Option WorkItem) : Mutation → Option WorkItem
  | .intent _ => row
  | .item _ record => if record.id = id then row.or (recordToWorkItem record) else row
  | .claim update => if update.workItemId = id then row.map (·.mergeClaim update) else row
  | .completion record =>
      if record.workItemId = id then row.map (·.mergeCompletion record) else row

namespace NetNode

theorem applyIntent_ok (sender : String) (readings : Nat → Int) (node : NetNode)
    (record : HumanIntent) (fits : FitsInt64 record.createdAtNs) :
    ∃ next, node.applyAction sender readings (.intent record) = .ok next ∧
      next.board.items = node.board.items ∧
      next.gossipHlc = node.gossipHlc ∧
      next.board.intents = node.board.intents.insertOrIgnore record := by
  simp only [applyAction, applyIntent, Board.postIntentDirect, if_pos fits, bind, Except.bind, pure, Except.pure]
  exact ⟨_, rfl, rfl, rfl, rfl⟩

theorem applyClaim_board (node : NetNode) (pt : Int) (update : ClaimUpdate) :
    ((node.applyClaim pt update).toOption.getD node).board = boardStep node.board update.call := by
  simp only [applyClaim, ClaimUpdate.call, boardStep, bind, Except.bind, pure, Except.pure]
  cases node.board.mergeClaimDirect update.workItemId update.agentPubkey update.hlcL update.hlcC
    update.hlcNode <;> rfl

theorem applyCompletion_board (node : NetNode) (record : CompletionRecord) :
    ((node.applyCompletion record).toOption.getD node).board =
      boardStep node.board (.mergeCompletion record.workItemId record.outputHash
        record.icpEnvelopeHash record.success record.completedAtNs) := by
  simp only [applyCompletion, boardStep, bind, Except.bind, pure, Except.pure]
  cases node.board.mergeCompletionDirect record.workItemId record.outputHash record.icpEnvelopeHash
    record.success record.completedAtNs <;> rfl

end NetNode

theorem mergeCompletion_get? (board : Board) (record : CompletionRecord)
    (fits : FitsInt64 record.completedAtNs) (id : String) :
    (boardStep board (.mergeCompletion record.workItemId record.outputHash record.icpEnvelopeHash
      record.success record.completedAtNs)).items.get? id =
      if record.workItemId = id then (board.items.get? id).map (·.mergeCompletion record)
      else board.items.get? id := by
  rcases mergeCompletion_items board record.workItemId record.outputHash record.icpEnvelopeHash
    record.success record.completedAtNs with ⟨same, done⟩ | ⟨row, target, uncompleted, _, rewrites⟩
  · rw [same]
    split_ifs with target
    · symm
      apply map_eq_self
      intro row stored
      rw [WorkItem.mergeCompletion, if_neg (done fits row (target ▸ stored))]
    · rfl
  · rw [rewrites.after_get?, target]
    split_ifs with same
    · rw [← same, ← target, rewrites.stored, Option.map_some, WorkItem.mergeCompletion,
        if_pos uncompleted]
      rfl
    · rfl

theorem recordToWorkItem_fields {record : WorkItemRecord} {item : WorkItem}
    (decoded : recordToWorkItem record = some item) :
    item.id = record.id ∧ item.lineageRoot = record.lineageRoot ∧ item.completedAtNs = none ∧
      item.claimedBy = none ∧ item.stamp = (0, 0, "") := by
  unfold recordToWorkItem at decoded
  split_ifs at decoded <;> cases decoded <;> exact ⟨rfl, rfl, rfl, rfl, rfl⟩

namespace NetNode

theorem applyItem_row (node : NetNode) (record : WorkItemRecord) (item : WorkItem)
    (decoded : recordToWorkItem record = some item) (binds : item.Binds)
    (known : (node.board.intents.get? record.lineageRoot).isSome = true) (id : String) :
    (node.applyItem record).board.items.get? id =
      if record.id = id then (node.board.items.get? id).or (recordToWorkItem record)
      else node.board.items.get? id := by
  have board : (node.applyItem record).board = boardStep node.board (.postWorkItem item) := by
    simp only [applyItem, decoded, boardStep]
  rcases recordToWorkItem_fields decoded with ⟨keyed, rooted, _⟩
  rw [board, decoded]
  by_cases fresh : node.board.items.get? item.id = none
  · rw [postWorkItem_inserts node.board item ⟨binds, fresh, rooted ▸ known⟩, keyed]
    split_ifs with target
    · subst target
      rw [← keyed, fresh, Option.none_or]
    · rfl
  · rw [postWorkItem_ignores node.board item (fun inserts => fresh inserts.fresh)]
    split_ifs with target
    · subst target
      rw [keyed] at fresh
      rcases Option.ne_none_iff_exists'.mp fresh with ⟨row, stored⟩
      rw [stored, Option.some_or]
    · rfl

theorem applyAction_nodeId (sender : String) (readings : Nat → Int) (node next : NetNode)
    (action : DeltaAction) (ok : node.applyAction sender readings action = .ok next) :
    next.gossipHlc.nodeId = node.gossipHlc.nodeId := by
  rcases applyAction_cases ok with ⟨_, _, _, _, _, _, rfl⟩ | ⟨_, _, _, _, _, rfl⟩ | ⟨_, _, _, rfl⟩
  · rfl
  · rfl
  · rfl

theorem applyDelta_nodeId (node : NetNode) (readings : Nat → Int) (delta : BlackboardDelta) :
    (node.applyDelta readings delta).gossipHlc.nodeId = node.gossipHlc.nodeId := by
  unfold applyDelta
  split_ifs
  · rfl
  · apply Run.untilError_invariant _
      (fun state : NetNode => state.gossipHlc.nodeId = node.gossipHlc.nodeId)
    · intro before after action _ same ok
      exact (applyAction_nodeId _ readings before after action ok).trans same
    · rfl

/-- An honest delta changes each row as `rowStep` says. -/
theorem applyDelta_row (node : NetNode) (readings : Nat → Int) (sender : String)
    (mutation : Mutation) (honest : mutation.Honest) (remote : sender ≠ node.gossipHlc.nodeId)
    (id : String) :
    (node.applyDelta readings (mutation.delta sender)).board.items.get? id =
      rowStep id (node.board.items.get? id) mutation := by
  have applied : node.applyDelta readings (mutation.delta sender) =
      (Run.untilError (applyAction sender readings) node (mutation.delta sender).actions).1 := by
    cases mutation <;> exact if_neg remote
  rw [applied]
  cases mutation with
  | intent record =>
      rcases applyIntent_ok sender readings node record honest with ⟨next, ok, items, _, _⟩
      have actions : ((Mutation.intent record).delta sender).actions = [.intent record] := rfl
      rw [actions, Run.untilError_cons_ok (applyAction sender readings) [] ok]
      exact congrArg (·.get? id) items
  | item lineage record =>
      rcases honest with ⟨fits, rooted, item, decoded, binds⟩
      rcases applyIntent_ok sender readings node lineage fits with ⟨next, ok, items, _, intents⟩
      have actions : ((Mutation.item lineage record).delta sender).actions =
          [.intent lineage, .item record] := rfl
      have known : (next.board.intents.get? record.lineageRoot).isSome = true := by
        rw [intents, Table.get?_insertOrIgnore, if_pos rooted]
        rfl
      rw [actions, Run.untilError_cons_ok (applyAction sender readings) [.item record] ok,
        Run.untilError_single]
      change (next.applyItem record).board.items.get? id = _
      rw [applyItem_row next record item decoded binds known, items, rowStep]
  | claim update =>
      have actions : ((Mutation.claim update).delta sender).actions = [.claim update 0] := rfl
      rw [actions, Run.untilError_single]
      change ((node.applyClaim (readings 0) update).toOption.getD node).board.items.get? id = _
      rw [applyClaim_board, mergeClaim_get?, rowStep]
      split_ifs with target
      · rfl
      · exact map_eq_self (fun _ _ => rfl)
  | completion record =>
      have actions : ((Mutation.completion record).delta sender).actions = [.completion record] := rfl
      rw [actions, Run.untilError_single]
      change ((node.applyCompletion record).toOption.getD node).board.items.get? id = _
      rw [applyCompletion_board, mergeCompletion_get? _ _ honest, rowStep]

end NetNode

/-- One delta as it reaches a replica; `readings` are the replica's physical clock. -/
structure Delivery where
  sender : String
  mutation : Mutation
  readings : Nat → Int

def replay (node : NetNode) (deliveries : List Delivery) : NetNode :=
  deliveries.foldl (fun current delivery =>
    current.applyDelta delivery.readings (delivery.mutation.delta delivery.sender)) node

theorem replay_row (deliveries : List Delivery) (id : String) (node : NetNode)
    (honest : ∀ delivery ∈ deliveries, delivery.mutation.Honest)
    (remote : ∀ delivery ∈ deliveries, delivery.sender ≠ node.gossipHlc.nodeId) :
    (replay node deliveries).board.items.get? id =
      (deliveries.map Delivery.mutation).foldl (rowStep id) (node.board.items.get? id) := by
  induction deliveries generalizing node with
  | nil => rfl
  | cons delivery rest ih =>
      have step := node.applyDelta_row delivery.readings delivery.sender delivery.mutation
        (honest delivery List.mem_cons_self) (remote delivery List.mem_cons_self) id
      rw [List.map_cons, List.foldl_cons, ← step]
      apply ih
      · intro other member
        exact honest other (List.mem_cons_of_mem _ member)
      · intro other member
        rw [NetNode.applyDelta_nodeId]
        exact remote other (List.mem_cons_of_mem _ member)

/-! The three parts of a row, read off the order in which its deltas arrived. -/

def itemOf (id : String) : Mutation → Option WorkItem
  | .item _ record => if record.id = id then recordToWorkItem record else none
  | _ => none

def claimOf (id : String) : Mutation → Option ClaimUpdate
  | .claim update => if update.workItemId = id then some update else none
  | _ => none

def completionOf (id : String) : Mutation → Option CompletionRecord
  | .completion record => if record.workItemId = id then some record else none
  | _ => none

def firstCompletion (id : String) (mutations : List Mutation) : Option CompletionRecord :=
  mutations.findSome? (completionOf id)

def claimsBeforeCompletion (id : String) (mutations : List Mutation) : List ClaimUpdate :=
  (mutations.takeWhile (fun mutation => (completionOf id mutation).isNone)).filterMap (claimOf id)

/-- An item with its claims merged, and completed if a completion arrived. -/
def finishRow (base : WorkItem) (claims : List ClaimUpdate) (completion : Option CompletionRecord) :
    WorkItem :=
  match completion with
  | none => claims.foldl WorkItem.mergeClaim base
  | some record => (claims.foldl WorkItem.mergeClaim base).writeCompletion record

theorem rowStep_completed (id : String) (row : WorkItem) (completed : row.completedAtNs ≠ none)
    (mutation : Mutation) : rowStep id (some row) mutation = some row := by
  cases mutation with
  | intent record => rfl
  | item lineage record =>
      simp only [rowStep, Option.some_or]
      split_ifs <;> rfl
  | claim update =>
      simp only [rowStep, Option.map_some, WorkItem.mergeClaim, if_neg completed]
      split_ifs <;> rfl
  | completion record =>
      simp only [rowStep, Option.map_some, WorkItem.mergeCompletion, if_neg completed]
      split_ifs <;> rfl

theorem foldl_rowStep_completed (id : String) (row : WorkItem) (completed : row.completedAtNs ≠ none)
    (mutations : List Mutation) : mutations.foldl (rowStep id) (some row) = some row := by
  induction mutations with
  | nil => rfl
  | cons mutation rest ih => rw [List.foldl_cons, rowStep_completed id row completed, ih]

theorem rowStep_claimOf (id : String) (row : WorkItem) (mutation : Mutation)
    (pending : completionOf id mutation = none) :
    rowStep id (some row) mutation =
      some ((claimOf id mutation).elim row (fun update => row.mergeClaim update)) := by
  cases mutation with
  | intent record => rfl
  | item lineage record =>
      simp only [rowStep, Option.some_or, claimOf]
      split_ifs <;> rfl
  | claim update =>
      simp only [rowStep, claimOf]
      split_ifs <;> rfl
  | completion record =>
      simp only [completionOf] at pending
      split_ifs at pending with target
      simp only [rowStep, if_neg target, claimOf]
      rfl

theorem rowStep_completionOf (id : String) (row : WorkItem) (uncompleted : row.completedAtNs = none)
    (mutation : Mutation) (record : CompletionRecord)
    (arrived : completionOf id mutation = some record) :
    rowStep id (some row) mutation = some (row.writeCompletion record) := by
  cases mutation with
  | completion other =>
      simp only [completionOf] at arrived
      split_ifs at arrived with target
      cases arrived
      simp only [rowStep, if_pos target, Option.map_some, WorkItem.mergeCompletion, if_pos uncompleted]
  | intent _ => cases arrived
  | item _ _ => cases arrived
  | claim _ => cases arrived

theorem mergeClaim_uncompleted {row : WorkItem} (uncompleted : row.completedAtNs = none)
    (update : ClaimUpdate) : (row.mergeClaim update).completedAtNs = none := by
  have same := congrArg Completion.completedAtNs (row.mergeClaim_completion update)
  exact same.trans uncompleted

/-- From the arrival of its item on, a row is finished by the claims before the first
completion and by that completion. -/
theorem foldl_rowStep_some (id : String) (mutations : List Mutation) (row : WorkItem)
    (uncompleted : row.completedAtNs = none) :
    mutations.foldl (rowStep id) (some row) =
      some (finishRow row (claimsBeforeCompletion id mutations) (firstCompletion id mutations)) := by
  induction mutations generalizing row with
  | nil => rfl
  | cons mutation rest ih =>
      rw [List.foldl_cons]
      cases arrived : completionOf id mutation with
      | some record =>
          rw [rowStep_completionOf id row uncompleted mutation record arrived,
            foldl_rowStep_completed id _ (Option.some_ne_none _)]
          simp [claimsBeforeCompletion, firstCompletion, arrived, finishRow]
      | none =>
          rw [rowStep_claimOf id row mutation arrived]
          have later : firstCompletion id (mutation :: rest) = firstCompletion id rest := by
            simp [firstCompletion, arrived]
          cases claimed : claimOf id mutation with
          | none =>
              have claims : claimsBeforeCompletion id (mutation :: rest) =
                  claimsBeforeCompletion id rest := by
                simp [claimsBeforeCompletion, arrived, claimed]
              rw [Option.elim_none, ih row uncompleted, claims, later]
          | some update =>
              have claims : claimsBeforeCompletion id (mutation :: rest) =
                  update :: claimsBeforeCompletion id rest := by
                simp [claimsBeforeCompletion, arrived, claimed]
              rw [Option.elim_some, ih _ (mergeClaim_uncompleted uncompleted update), claims, later]
              simp only [finishRow, List.foldl_cons]

/-- An item arrives before every claim and completion about it. -/
def ItemsFirst (mutations : List Mutation) : Prop :=
  ∀ front mutation rest, mutations = front ++ mutation :: rest → ∀ id, mutation.about = some id →
    ∃ earlier ∈ front, (itemOf id earlier).isSome = true

theorem parts_of_not_about {id : String} {mutation : Mutation} (other : mutation.about ≠ some id) :
    claimOf id mutation = none ∧ completionOf id mutation = none := by
  cases mutation with
  | intent _ => exact ⟨rfl, rfl⟩
  | item _ _ => exact ⟨rfl, rfl⟩
  | claim update =>
      have apart : update.workItemId ≠ id := by
        intro same
        exact other (congrArg some same)
      exact ⟨if_neg apart, rfl⟩
  | completion record =>
      have apart : record.workItemId ≠ id := by
        intro same
        exact other (congrArg some same)
      exact ⟨rfl, if_neg apart⟩

theorem rowStep_none (id : String) (mutation : Mutation) :
    rowStep id none mutation = itemOf id mutation := by
  cases mutation with
  | intent record => rfl
  | item lineage record => simp only [rowStep, Option.none_or, itemOf]
  | claim update =>
      simp only [rowStep, Option.map_none, ite_self, itemOf]
  | completion record =>
      simp only [rowStep, Option.map_none, ite_self, itemOf]

theorem itemOf_uncompleted {id : String} {mutation : Mutation} {item : WorkItem}
    (found : itemOf id mutation = some item) :
    item.completedAtNs = none ∧ item.stamp = (0, 0, "") := by
  cases mutation with
  | item lineage record =>
      simp only [itemOf] at found
      split_ifs at found
      rcases recordToWorkItem_fields found with ⟨_, _, uncompleted, _, stamp⟩
      exact ⟨uncompleted, stamp⟩
  | intent _ => cases found
  | claim _ => cases found
  | completion _ => cases found

/-- The whole row: the first item under the id, finished by what came after it. -/
theorem foldl_rowStep_none (id : String) (mutations : List Mutation)
    (respects : ∀ front mutation rest, mutations = front ++ mutation :: rest →
      mutation.about = some id → ∃ earlier ∈ front, (itemOf id earlier).isSome = true) :
    mutations.foldl (rowStep id) none =
      (mutations.findSome? (itemOf id)).map (fun base =>
        finishRow base (claimsBeforeCompletion id mutations) (firstCompletion id mutations)) := by
  induction mutations with
  | nil => rfl
  | cons mutation rest ih =>
      have other : mutation.about ≠ some id := by
        intro target
        rcases respects [] mutation rest rfl target with ⟨earlier, member, _⟩
        cases member
      rcases parts_of_not_about other with ⟨noClaim, noCompletion⟩
      have claims : claimsBeforeCompletion id (mutation :: rest) = claimsBeforeCompletion id rest := by
        simp [claimsBeforeCompletion, noClaim, noCompletion]
      have later : firstCompletion id (mutation :: rest) = firstCompletion id rest := by
        simp [firstCompletion, noCompletion]
      rw [List.foldl_cons, rowStep_none, claims, later, List.findSome?_cons]
      cases found : itemOf id mutation with
      | some base => exact foldl_rowStep_some id rest base (itemOf_uncompleted found).1
      | none =>
          apply ih
          intro front next back split target
          rcases respects (mutation :: front) next back (by rw [split, List.cons_append]) target with
            ⟨earlier, member, isItem⟩
          rcases List.mem_cons.mp member with rfl | inside
          · rw [found] at isItem
            cases isItem
          · exact ⟨earlier, inside, isItem⟩

end Gyza

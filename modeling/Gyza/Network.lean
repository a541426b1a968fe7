import Gyza.Replicas

/-! Networks of nodes that gossip, and what their nodes publish.

A delta is published once and may reach a node late, twice or never. -/

namespace Gyza

open Run (run)

/-- The calls that publish a delta. -/
inductive NodeCall where
  | postIntent (intentId goalSpecJson : String) (createdAtNs publishedAtNs : Int)
  | postWorkItem (item : WorkItem)
  | tryClaim (workItemId agentPubkey : String) (hlc : Hlc) (pt : Int) (claimantTier : Option Int)
  | completeWorkItem (workItemId outputHash icpEnvelopeHash : String) (success : Bool)
      (completedAtNs publishedAtNs : Int) (expectedOwner : Option String)

/-- The node a call leaves and the delta it publishes; a call that raises does nothing. -/
def NetNode.call (node : NetNode) : NodeCall → NetNode × Option BlackboardDelta
  | .postIntent intentId goalSpecJson createdAtNs publishedAtNs =>
      match node.postIntent intentId goalSpecJson createdAtNs publishedAtNs with
      | .error _ => (node, none)
      | .ok (next, delta) => (next, some delta)
  | .postWorkItem item =>
      match node.postWorkItem item with
      | .error _ => (node, none)
      | .ok (next, delta) => (next, some delta)
  | .tryClaim workItemId agentPubkey hlc pt claimantTier =>
      match (node.tryClaim workItemId agentPubkey hlc pt claimantTier).2 with
      | .error _ => (node, none)
      | .ok result => result
  | .completeWorkItem workItemId outputHash icpEnvelopeHash success completedAtNs publishedAtNs
      expectedOwner =>
      match node.completeWorkItem workItemId outputHash icpEnvelopeHash success completedAtNs
        publishedAtNs expectedOwner with
      | .error _ => (node, none)
      | .ok (next, delta) => (next, some delta)

/-- Nodes by the pubkey of their compositor, every delta published so far, and who posted
which intent. -/
structure Network where
  nodes : String → NetNode
  published : List BlackboardDelta
  posters : List (String × String)

def Network.start : Network :=
  { nodes := fun pubkey => { board := Board.empty, gossipHlc := { nodeId := pubkey } }
    published := []
    posters := [] }

/-- `place` is the place of the delivered delta among those published. -/
inductive NetInput where
  | call (pubkey : String) (request : NodeCall)
  | deliver (pubkey : String) (place : Nat) (readings : Nat → Int)

/-- What a call adds to the posters, given the delta it published. -/
def posted (pubkey : String) : NodeCall → Option BlackboardDelta → List (String × String)
  | .postIntent intentId _ _ _, some _ => [(intentId, pubkey)]
  | _, _ => []

def networkStep (network : Network) : NetInput → Network
  | .call pubkey request =>
      let result := (network.nodes pubkey).call request
      { nodes := Function.update network.nodes pubkey result.1
        published := network.published ++ result.2.toList
        posters := network.posters ++ posted pubkey request result.2 }
  | .deliver pubkey place readings =>
      match network.published[place]? with
      | none => network
      | some delta =>
          { network with
            nodes := Function.update network.nodes pubkey
              ((network.nodes pubkey).applyDelta readings delta) }

/-! What the nodes of a network publish is honest. -/

/-- The time a published record reads off the clock fits its column. -/
def NodeCall.ClockFits : NodeCall → Prop
  | .postIntent _ _ _ publishedAtNs => FitsInt64 publishedAtNs
  | .completeWorkItem _ _ _ _ _ publishedAtNs _ => FitsInt64 publishedAtNs
  | .postWorkItem _ => True
  | .tryClaim _ _ _ _ _ => True

def NetInput.ClockFits : NetInput → Prop
  | .call _ request => request.ClockFits
  | .deliver _ _ _ => True

def HonestDelta (delta : BlackboardDelta) : Prop :=
  ∃ sender mutation, Mutation.Honest mutation ∧ delta = mutation.delta sender

namespace NetNode

/-- Intents are kept, and cached, under their ids with times that fit. -/
structure Stored (node : NetNode) : Prop where
  rows : ∀ id intent, node.board.intents.get? id = some intent → FitsInt64 intent.createdAtNs
  cached : ∀ id intent, node.lineageIntentCache.lookup id = some intent →
    intent.intentId = id ∧ FitsInt64 intent.createdAtNs

theorem Stored.of_intents {node next : NetNode} (stored : node.Stored)
    (intents : next.board.intents = node.board.intents)
    (cache : next.lineageIntentCache = node.lineageIntentCache) : next.Stored := by
  constructor
  · rw [intents]
    exact stored.rows
  · rw [cache]
    exact stored.cached

theorem Stored.of_intent {node next : NetNode} (stored : node.Stored) {record : HumanIntent}
    (fits : FitsInt64 record.createdAtNs)
    (intents : next.board.intents = node.board.intents.insertOrIgnore record)
    (cache : next.lineageIntentCache = node.lineageIntentCache) : next.Stored := by
  constructor
  · intro id intent found
    rw [intents, Table.get?_insertOrIgnore] at found
    split_ifs at found
    · cases before : node.board.intents.get? id with
      | none =>
          rw [before] at found
          cases found
          exact fits
      | some old =>
          rw [before] at found
          cases found
          exact stored.rows id old before
    · exact stored.rows id intent found
  · rw [cache]
    exact stored.cached

theorem applyDelta_stored {node : NetNode} (stored : node.Stored) (readings : Nat → Int)
    (delta : BlackboardDelta) : (node.applyDelta readings delta).Stored := by
  unfold applyDelta
  split_ifs
  · exact stored
  · apply Run.untilError_invariant _ Stored _ _ _ stored
    intro before after action _ holds ok
    rcases applyAction_cases ok with ⟨record, board, _, _, fits, intents, rfl⟩ |
      ⟨_, _, board, _, merged, rfl⟩ | ⟨_, board, intents, rfl⟩
    · exact holds.of_intent fits intents rfl
    · exact holds.of_intents (Board.mergeClaimDirect_intents merged) rfl
    · exact holds.of_intents intents rfl

/-- The lineage record of an item whose intent is stored. -/
theorem lineageIntentRecords_stored {node : NetNode} (stored : node.Stored) {lineageRoot : String}
    (known : (node.board.intents.get? lineageRoot).isSome = true) :
    (node.lineageIntentRecords lineageRoot).2.Stored ∧
      ∃ record, (node.lineageIntentRecords lineageRoot).1 = [record] ∧
        record.intentId = lineageRoot ∧ FitsInt64 record.createdAtNs := by
  unfold lineageIntentRecords
  split
  · rename_i hit found
    exact ⟨stored, hit, rfl, stored.cached lineageRoot hit found⟩
  · split
    · rename_i absent
      rw [absent] at known
      cases known
    · rename_i row found
      have keyed := ((Table.get?_eq_some node.board.intents lineageRoot row).mp found).2
      have fits := stored.rows lineageRoot row found
      refine ⟨⟨stored.rows, ?_⟩, row, rfl, keyed, fits⟩
      intro id intent cached
      rw [Dict.lookup_set] at cached
      split_ifs at cached with same
      · cases cached
        exact ⟨keyed.trans same, fits⟩
      · exact stored.cached id intent cached

theorem postIntent_honest {node next : NetNode} {delta : BlackboardDelta} (stored : node.Stored)
    {intentId goalSpecJson : String} {createdAtNs publishedAtNs : Int}
    (fits : FitsInt64 publishedAtNs)
    (ok : node.postIntent intentId goalSpecJson createdAtNs publishedAtNs = .ok (next, delta)) :
    next.Stored ∧ HonestDelta delta := by
  unfold postIntent Board.postIntentDirect at ok
  by_cases empty : intentId = ""
  · rw [if_pos empty] at ok
    cases ok
  by_cases binds : FitsInt64 createdAtNs
  · rw [if_neg empty, if_pos binds] at ok
    cases ok
    have written : FitsInt64 (HumanIntent.mk intentId goalSpecJson createdAtNs).createdAtNs := binds
    constructor
    · exact stored.of_intent written rfl rfl
    · exact ⟨node.gossipHlc.nodeId, .intent ⟨intentId, goalSpecJson, publishedAtNs⟩, fits, rfl⟩
  · rw [if_neg empty, if_neg binds] at ok
    cases ok

theorem postWorkItem_honest {node next : NetNode} {delta : BlackboardDelta} (stored : node.Stored)
    {item : WorkItem} (ok : node.postWorkItem item = .ok (next, delta)) :
    next.Stored ∧ HonestDelta delta := by
  unfold postWorkItem at ok
  split_ifs at ok with unknown
  split at ok
  · cases ok
  · rename_i board result
    rcases Board.postWorkItemDirect_intents result with ⟨binds, intents⟩
    have posted : ({ node with board := board } : NetNode).Stored := stored.of_intents intents rfl
    have known : (board.intents.get? item.lineageRoot).isSome = true := by
      rw [intents]
      simpa [Option.isSome_iff_ne_none] using unknown
    rcases lineageIntentRecords_stored posted known with ⟨kept, record, carried, rooted, fits⟩
    cases ok
    refine ⟨kept, node.gossipHlc.nodeId, .item record (workItemToRecord item), ?_, ?_⟩
    · exact ⟨fits, rooted, item.gossiped, recordToWorkItem_workItemToRecord item,
        WorkItem.gossiped_binds binds⟩
    · simp only [carried, Mutation.delta]

theorem tryClaim_honest {node next : NetNode} {published : Option BlackboardDelta}
    (stored : node.Stored) {workItemId agentPubkey : String} {hlc : Hlc} {pt : Int}
    {claimantTier : Option Int}
    (ok : (node.tryClaim workItemId agentPubkey hlc pt claimantTier).2 = .ok (next, published)) :
    next.Stored ∧ ∀ delta ∈ published, HonestDelta delta := by
  simp only [tryClaim, bind, Except.bind, pure, Except.pure] at ok
  split at ok
  · cases ok
  · rename_i outcome result
    rcases outcome with ⟨won, board⟩
    rcases Board.tryClaimDirect_intents result with ⟨intents, fits⟩
    cases ok
    refine ⟨stored.of_intents intents rfl, ?_⟩
    intro delta member
    cases won with
    | true =>
        rw [if_pos rfl] at member
        cases member
        -- the stamp that is published is the one that was stored
        exact ⟨node.gossipHlc.nodeId, .claim ⟨workItemId, agentPubkey, node.gossipHlc.nodeId,
          (hlc.now pt).2.l, (hlc.now pt).2.c, (hlc.now pt).2.nodeId⟩, fits rfl, rfl⟩
    | false => cases member

theorem completeWorkItem_honest {node next : NetNode} {delta : BlackboardDelta}
    (stored : node.Stored) {workItemId outputHash icpEnvelopeHash : String} {success : Bool}
    {completedAtNs publishedAtNs : Int} {expectedOwner : Option String}
    (fits : FitsInt64 publishedAtNs)
    (ok : node.completeWorkItem workItemId outputHash icpEnvelopeHash success completedAtNs
      publishedAtNs expectedOwner = .ok (next, delta)) :
    next.Stored ∧ HonestDelta delta := by
  simp only [completeWorkItem, bind, Except.bind, pure, Except.pure] at ok
  split at ok
  · cases ok
  · rename_i board result
    cases ok
    constructor
    · exact stored.of_intents (Board.completeWorkItemDirect_intents result) rfl
    · exact ⟨node.gossipHlc.nodeId, .completion ⟨workItemId, outputHash, icpEnvelopeHash, success,
        publishedAtNs, node.gossipHlc.nodeId⟩, fits, rfl⟩

/-- A call keeps the intents in order and publishes only what is honest. -/
theorem call_honest {node : NetNode} (stored : node.Stored) {request : NodeCall}
    (clock : request.ClockFits) :
    (node.call request).1.Stored ∧ ∀ delta ∈ (node.call request).2, HonestDelta delta := by
  have idle : node.Stored ∧ ∀ delta ∈ (none : Option BlackboardDelta), HonestDelta delta := by
    refine ⟨stored, ?_⟩
    intro delta member
    cases member
  have single : ∀ (next : NetNode) delta, next.Stored ∧ HonestDelta delta →
      next.Stored ∧ ∀ other ∈ some delta, HonestDelta other := by
    intro next delta honest
    refine ⟨honest.1, ?_⟩
    intro other member
    cases member
    exact honest.2
  cases request with
  | postIntent intentId goalSpecJson createdAtNs publishedAtNs =>
      simp only [call]
      split
      · exact idle
      · rename_i ok
        exact single _ _ (postIntent_honest stored clock ok)
  | postWorkItem item =>
      simp only [call]
      split
      · exact idle
      · rename_i ok
        exact single _ _ (postWorkItem_honest stored ok)
  | tryClaim workItemId agentPubkey hlc pt claimantTier =>
      simp only [call]
      split
      · exact idle
      · rename_i ok
        exact tryClaim_honest stored ok
  | completeWorkItem workItemId outputHash icpEnvelopeHash success completedAtNs publishedAtNs
      expectedOwner =>
      simp only [call]
      split
      · exact idle
      · rename_i ok
        exact single _ _ (completeWorkItem_honest stored clock ok)

end NetNode

/-- Every node keeps its intents in order, and everything published is honest. -/
structure HonestNetwork (network : Network) : Prop where
  stored : ∀ pubkey, (network.nodes pubkey).Stored
  published : ∀ delta ∈ network.published, HonestDelta delta

theorem networkStep_honest {network : Network} (honest : HonestNetwork network) {input : NetInput}
    (clock : input.ClockFits) : HonestNetwork (networkStep network input) := by
  cases input with
  | call pubkey request =>
      rcases NetNode.call_honest (honest.stored pubkey) clock with ⟨stored, published⟩
      constructor
      · exact (Function.forall_update_iff network.nodes (fun _ node => node.Stored)).mpr
          ⟨stored, fun other _ => honest.stored other⟩
      · intro delta member
        rcases List.mem_append.mp member with earlier | added
        · exact honest.published delta earlier
        · exact published delta (Option.mem_toList.mp added)
  | deliver pubkey place readings =>
      cases carried : network.published[place]? with
      | none =>
          simp only [networkStep, carried]
          exact honest
      | some delta =>
          simp only [networkStep, carried]
          refine ⟨?_, honest.published⟩
          exact (Function.forall_update_iff network.nodes (fun _ node => node.Stored)).mpr
            ⟨NetNode.applyDelta_stored (honest.stored pubkey) readings delta,
              fun other _ => honest.stored other⟩

/-- Along every run, each published delta is that of an honest mutation. -/
theorem published_honest (inputs : List NetInput) (clocks : ∀ input ∈ inputs, input.ClockFits) :
    ∀ delta ∈ (run networkStep Network.start inputs).published, HonestDelta delta := by
  have start : HonestNetwork Network.start := by
    refine ⟨fun _ => ⟨?_, ?_⟩, ?_⟩
    · intro id intent found
      cases found
    · intro id intent found
      cases found
    · intro delta member
      cases member
  have reached := Run.invariant_run networkStep (fun _ input => input.ClockFits) HonestNetwork
    (fun network input holds clock => networkStep_honest holds clock) Network.start inputs start
    (Run.admissible_of_steps _ _ _ _ (fun front input rest split =>
      clocks input (by rw [split]; simp)))
  exact reached.published

end Gyza

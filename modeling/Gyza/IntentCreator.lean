import Gyza.Network

/-! Whom a node takes for the originator of an intent, along every run of a network. -/

namespace Gyza

open Run (run Admissible)

/-- Every creator a node knows posted the intent, nodes that know one agree, and the
free-rider filter judges an item with a known creator by whoever posted its intent. -/
structure Attributed (network : Network) : Prop where
  originator : ∀ pubkey intentId creator,
    (network.nodes pubkey).intentCreator.lookup intentId = some creator →
      (intentId, creator) ∈ network.posters
  agree : ∀ first second intentId creator other,
    (network.nodes first).intentCreator.lookup intentId = some creator →
      (network.nodes second).intentCreator.lookup intentId = some other → creator = other
  filtered : ∀ pubkey keep minReward tier limit nowNs all kept,
    (network.nodes pubkey).getUnclaimed none minReward tier limit nowNs = .ok all →
      (network.nodes pubkey).getUnclaimed (some keep) minReward tier limit nowNs = .ok kept →
        ∀ item ∈ all, ∀ creator,
          (network.nodes pubkey).intentCreator.lookup item.lineageRoot = some creator →
            ∀ poster, (item.lineageRoot, poster) ∈ network.posters →
              (item ∈ kept ↔ (keep poster).getD true = true)

/-- The call posts an intent under this id. -/
def NodeCall.Posts (request : NodeCall) (intentId : String) : Prop :=
  match request with
  | .postIntent requested _ createdAtNs _ =>
      requested = intentId ∧ intentId ≠ "" ∧ FitsInt64 createdAtNs
  | _ => False

/-- The node takes the sender of the delta for the creator of the intent in this record. -/
structure Attributes (node : NetNode) (delta : BlackboardDelta) (record : HumanIntent) : Prop where
  carried : record ∈ delta.newIntents
  remote : delta.senderCompositorPubkey ≠ node.gossipHlc.nodeId
  stamped : delta.senderCompositorPubkey ≠ ""
  fits : FitsInt64 record.createdAtNs
  unknown : node.intentCreator.lookup record.intentId = none

/-- Only one node posts an intent, and a node that does not know its creator yet receives
it from that node. -/
def FromOriginator (network : Network) : NetInput → Prop
  | .call pubkey request => ∀ intentId, request.Posts intentId →
      ∀ poster, (intentId, poster) ∈ network.posters → poster = pubkey
  | .deliver pubkey place _ => ∀ delta, network.published[place]? = some delta →
      ∀ record, Attributes (network.nodes pubkey) delta record →
        (record.intentId, delta.senderCompositorPubkey) ∈ network.posters

theorem NodeCall.Posts.unique {request : NodeCall} {first second : String}
    (posts : request.Posts first) (also : request.Posts second) : first = second := by
  cases request with
  | postIntent intentId goalSpecJson createdAtNs publishedAtNs => exact posts.1.symm.trans also.1
  | postWorkItem item => exact posts.elim
  | tryClaim workItemId agentPubkey hlc pt claimantTier => exact posts.elim
  | completeWorkItem workItemId outputHash icpEnvelopeHash success completedAtNs publishedAtNs
      expectedOwner => exact posts.elim

namespace NetNode

theorem getUnclaimed_filter {node : NetNode} {keep : String → Option Bool} {minReward : Float}
    {tier : Int} {limit : Option Int} {nowNs : Int} {all kept : List WorkItem}
    (unfiltered : node.getUnclaimed none minReward tier limit nowNs = .ok all)
    (filtered : node.getUnclaimed (some keep) minReward tier limit nowNs = .ok kept) :
    kept = all.filter (node.keepsItem keep) := by
  simp only [getUnclaimed, bind, Except.bind, pure, Except.pure] at unfiltered filtered
  split at unfiltered
  · cases unfiltered
  · rename_i served found
    rw [found] at filtered
    cases unfiltered
    cases filtered
    rfl

theorem lineageIntentRecords_spec (node : NetNode) (lineageRoot : String) :
    ∃ cache, (node.lineageIntentRecords lineageRoot).2 = { node with lineageIntentCache := cache } ∧
      (node.lineageIntentRecords lineageRoot).1.length ≤ 1 := by
  unfold lineageIntentRecords
  split
  · exact ⟨_, rfl, le_refl 1⟩
  · split
    · exact ⟨_, rfl, Nat.zero_le 1⟩
    · exact ⟨_, rfl, le_refl 1⟩

/-- The call posts this intent: the node becomes its creator. -/
def PostsAs (node : NetNode) (request : NodeCall) (intentId : String) : Prop :=
  request.Posts intentId ∧ ∃ board delta, delta.newIntents.length ≤ 1 ∧
    node.call request =
      ({ node with
          board := board
          intentCreator := node.intentCreator.set intentId node.gossipHlc.nodeId }, some delta)

/-- The call posts no intent: the node knows the same creators. -/
def PostsNone (node : NetNode) (request : NodeCall) : Prop :=
  (∀ intentId, ¬request.Posts intentId) ∧ ∃ board cache, ∃ delta : Option BlackboardDelta,
    (∀ carried ∈ delta, carried.newIntents.length ≤ 1) ∧
    (∀ pubkey, posted pubkey request delta = []) ∧
    node.call request = ({ node with board := board, lineageIntentCache := cache }, delta)

theorem call_cases (node : NetNode) (request : NodeCall) :
    (∃ intentId, node.PostsAs request intentId) ∨ node.PostsNone request := by
  cases request with
  | postIntent intentId goalSpecJson createdAtNs publishedAtNs =>
      by_cases posts : intentId ≠ "" ∧ FitsInt64 createdAtNs
      · refine .inl ⟨intentId, ⟨rfl, posts⟩, ?_⟩
        simp only [call, postIntent, if_neg posts.1, Board.postIntentDirect, if_pos posts.2]
        exact ⟨_, _, le_refl 1, rfl⟩
      · refine .inr ⟨fun other requested => posts (requested.1 ▸ requested.2), node.board,
          node.lineageIntentCache, none, by simp, fun _ => rfl, ?_⟩
        simp only [call, postIntent, Board.postIntentDirect]
        by_cases empty : intentId = ""
        · rw [if_pos empty]
        · rw [if_neg empty, if_neg (fun fits => posts ⟨empty, fits⟩)]
  | postWorkItem item =>
      refine .inr ⟨fun _ requested => requested, ?_⟩
      cases result : node.board.postWorkItemDirect item with
      | error error =>
          refine ⟨node.board, node.lineageIntentCache, none, by simp, fun _ => rfl, ?_⟩
          simp only [call, postWorkItem, result]
          split_ifs <;> rfl
      | ok board =>
          simp only [call, postWorkItem, result]
          split_ifs
          · exact ⟨node.board, node.lineageIntentCache, none, by simp, fun _ => rfl, rfl⟩
          · rcases lineageIntentRecords_spec { node with board := board } item.lineageRoot with
              ⟨cache, same, single⟩
            rw [same]
            refine ⟨board, cache, _, ?_, fun _ => rfl, rfl⟩
            simpa using single
  | tryClaim workItemId agentPubkey hlc pt claimantTier =>
      refine .inr ⟨fun _ requested => requested, ?_⟩
      simp only [call, tryClaim, bind, Except.bind, pure, Except.pure]
      cases node.board.tryClaimDirect workItemId agentPubkey (hlc.now pt).1.1 (hlc.now pt).1.2.1
        (hlc.now pt).1.2.2 claimantTier with
      | error error =>
          exact ⟨node.board, node.lineageIntentCache, none, by simp, fun _ => rfl, rfl⟩
      | ok result =>
          refine ⟨result.2, node.lineageIntentCache, _, ?_, fun _ => rfl, rfl⟩
          split_ifs <;> simp
  | completeWorkItem workItemId outputHash icpEnvelopeHash success completedAtNs publishedAtNs
      expectedOwner =>
      refine .inr ⟨fun _ requested => requested, ?_⟩
      simp only [call, completeWorkItem, bind, Except.bind, pure, Except.pure]
      cases node.board.completeWorkItemDirect workItemId outputHash icpEnvelopeHash success
        completedAtNs expectedOwner with
      | error error =>
          exact ⟨node.board, node.lineageIntentCache, none, by simp, fun _ => rfl, rfl⟩
      | ok board => exact ⟨board, node.lineageIntentCache, _, by simp, fun _ => rfl, rfl⟩

theorem call_frame (node : NetNode) (request : NodeCall) :
    (node.call request).1.gossipHlc = node.gossipHlc ∧
      ∀ delta ∈ (node.call request).2, delta.newIntents.length ≤ 1 := by
  rcases call_cases node request with ⟨intentId, _, board, delta, single, result⟩ |
    ⟨_, board, cache, delta, single, _, result⟩
  · rw [result]
    exact ⟨rfl, by simpa using single⟩
  · rw [result]
    exact ⟨rfl, single⟩

/-- Only the intent records of a delta touch the known creators. -/
theorem applyAction_creator (sender : String) (readings : Nat → Int) (node next : NetNode)
    (action : DeltaAction) (other : ∀ record, action ≠ .intent record)
    (ok : node.applyAction sender readings action = .ok next) :
    next.intentCreator = node.intentCreator := by
  rcases applyAction_cases ok with ⟨record, _, _, same, _⟩ | ⟨_, _, _, _, _, rfl⟩ | ⟨_, _, _, rfl⟩
  · exact absurd same (other record)
  · rfl
  · rfl

theorem untilError_creator (sender : String) (readings : Nat → Int) (node : NetNode)
    (actions : List DeltaAction) (other : ∀ action ∈ actions, ∀ record, action ≠ .intent record) :
    (Run.untilError (applyAction sender readings) node actions).1.intentCreator =
      node.intentCreator := by
  apply Run.untilError_invariant _
    (fun state : NetNode => state.intentCreator = node.intentCreator) actions
  · intro before after action member same ok
    exact (applyAction_creator sender readings before after action (other action member) ok).trans
      same
  · rfl

theorem actions_split (delta : BlackboardDelta) :
    ∃ rest, delta.actions = delta.newIntents.map .intent ++ rest ∧
      ∀ action ∈ rest, ∀ record, action ≠ .intent record := by
  refine ⟨_, by rw [BlackboardDelta.actions, List.append_assoc, List.append_assoc], ?_⟩
  intro action member record
  simp only [List.mem_append, List.mem_map] at member
  rcases member with ⟨_, _, rfl⟩ | ⟨_, _, rfl⟩ | ⟨_, _, rfl⟩ <;> exact DeltaAction.noConfusion

theorem applyIntent_creator (sender : String) (readings : Nat → Int) (node : NetNode)
    (record : HumanIntent) (rest : List DeltaAction)
    (other : ∀ action ∈ rest, ∀ record, action ≠ .intent record) :
    (Run.untilError (applyAction sender readings) node (.intent record :: rest)).1.intentCreator =
      if FitsInt64 record.createdAtNs ∧ sender ≠ "" then
        node.intentCreator.setdefault record.intentId sender
      else node.intentCreator := by
  by_cases fits : FitsInt64 record.createdAtNs
  · have applied : node.applyAction sender readings (.intent record) =
        .ok
          { node with
            board :=
              { node.board with
                intents := node.board.intents.insertOrIgnore
                  ⟨record.intentId, record.goalSpecJson, record.createdAtNs⟩ }
            intentCreator :=
              if sender = "" then node.intentCreator
              else node.intentCreator.setdefault record.intentId sender } := by
      simp only [applyAction, applyIntent, Board.postIntentDirect, if_pos fits]
      rfl
    rw [Run.untilError_cons_ok _ rest applied, untilError_creator _ _ _ rest other]
    by_cases unstamped : sender = ""
    · rw [if_pos unstamped, if_neg (fun attributed => attributed.2 unstamped)]
    · rw [if_neg unstamped, if_pos ⟨fits, unstamped⟩]
  · have raised : node.applyAction sender readings (.intent record) = .error .bindOverflow := by
      simp only [applyAction, applyIntent, Board.postIntentDirect, if_neg fits]
      rfl
    rw [Run.untilError_cons_error _ rest raised, if_neg (fun attributed => fits attributed.1)]

/-- A delta with at most one intent record makes its sender a creator as `Attributes` says. -/
theorem applyDelta_creator (node : NetNode) (readings : Nat → Int) (delta : BlackboardDelta)
    (single : delta.newIntents.length ≤ 1) (intentId creator : String) :
    (node.applyDelta readings delta).intentCreator.lookup intentId = some creator ↔
      node.intentCreator.lookup intentId = some creator ∨
        ∃ record, Attributes node delta record ∧ record.intentId = intentId ∧
          delta.senderCompositorPubkey = creator := by
  by_cases remote : delta.senderCompositorPubkey = node.gossipHlc.nodeId
  · rw [applyDelta, if_pos remote]
    constructor
    · exact .inl
    · rintro (known | ⟨record, attributes, _, _⟩)
      · exact known
      · exact absurd remote attributes.remote
  rcases actions_split delta with ⟨rest, split, other⟩
  rw [applyDelta, if_neg remote, split]
  rcases intents : delta.newIntents with _ | ⟨record, _ | ⟨second, more⟩⟩
  · rw [List.map_nil, List.nil_append, untilError_creator _ _ _ rest other]
    constructor
    · exact .inl
    · rintro (known | ⟨record, attributes, _, _⟩)
      · exact known
      · have carried := attributes.carried
        rw [intents] at carried
        cases carried
  · rw [List.map_singleton, List.singleton_append, applyIntent_creator _ _ _ record rest other]
    have carried : ∀ other, other ∈ delta.newIntents ↔ other = record := by
      intro other
      rw [intents, List.mem_singleton]
    constructor
    · intro known
      split_ifs at known with attributed
      · rcases (Dict.lookup_setdefault_eq_some ..).mp known with before | ⟨unknown, target, creator⟩
        · exact .inl before
        · exact .inr ⟨record, ⟨(carried record).mpr rfl, remote, attributed.2, attributed.1,
            target ▸ unknown⟩, target, creator⟩
      · exact .inl known
    · rintro (known | ⟨other, attributes, target, sender⟩)
      · split_ifs
        · exact (Dict.lookup_setdefault_eq_some ..).mpr (.inl known)
        · exact known
      · have same := (carried other).mp attributes.carried
        subst same
        rw [if_pos ⟨attributes.fits, attributes.stamped⟩]
        exact (Dict.lookup_setdefault_eq_some ..).mpr
          (.inr ⟨target ▸ attributes.unknown, target, sender⟩)
  · rw [intents] at single
    simp at single

end NetNode

/-- What holds of every network, whoever forwards what. -/
structure NetworkSound (network : Network) : Prop where
  keyed : ∀ pubkey, (network.nodes pubkey).gossipHlc.nodeId = pubkey
  single : ∀ delta ∈ network.published, delta.newIntents.length ≤ 1
  own : ∀ intentId pubkey, (intentId, pubkey) ∈ network.posters →
    (network.nodes pubkey).intentCreator.lookup intentId = some pubkey

/-- A call, seen from the network. -/
theorem networkStep_call {network : Network} (sound : NetworkSound network) (pubkey : String)
    (request : NodeCall) :
    (∃ intentId, request.Posts intentId ∧
      (networkStep network (.call pubkey request)).posters =
        network.posters ++ [(intentId, pubkey)] ∧
      ∀ node other, ((networkStep network (.call pubkey request)).nodes node).intentCreator.lookup
        other = if node = pubkey ∧ intentId = other then some pubkey
          else (network.nodes node).intentCreator.lookup other) ∨
    ((∀ intentId, ¬request.Posts intentId) ∧
      (networkStep network (.call pubkey request)).posters = network.posters ∧
      ∀ node other, ((networkStep network (.call pubkey request)).nodes node).intentCreator.lookup
        other = (network.nodes node).intentCreator.lookup other) := by
  rcases NetNode.call_cases (network.nodes pubkey) request with
    ⟨intentId, posts, board, delta, _, result⟩ | ⟨idle, board, cache, delta, _, none, result⟩
  · refine .inl ⟨intentId, posts, ?_, ?_⟩
    · simp only [networkStep, result]
      cases request with
      | postIntent requested goalSpecJson createdAtNs publishedAtNs =>
          rw [← posts.1]
          rfl
      | postWorkItem item => exact posts.elim
      | tryClaim workItemId agentPubkey hlc pt claimantTier => exact posts.elim
      | completeWorkItem workItemId outputHash icpEnvelopeHash success completedAtNs publishedAtNs
          expectedOwner => exact posts.elim
    · intro node other
      simp only [networkStep, result]
      by_cases caller : node = pubkey
      · subst caller
        rw [Function.update_self, Dict.lookup_set, sound.keyed]
        simp only [true_and]
      · rw [Function.update_of_ne caller, if_neg (fun both => caller both.1)]
  · refine .inr ⟨idle, ?_, ?_⟩
    · simp only [networkStep, result, none, List.append_nil]
    · intro node other
      simp only [networkStep, result]
      by_cases caller : node = pubkey
      · subst caller
        rw [Function.update_self]
      · rw [Function.update_of_ne caller]

theorem networkStep_deliver_posters (network : Network) (pubkey : String) (place : Nat)
    (readings : Nat → Int) :
    (networkStep network (.deliver pubkey place readings)).posters = network.posters := by
  simp only [networkStep]
  split <;> rfl

theorem networkStep_deliver {network : Network} (sound : NetworkSound network) {pubkey : String}
    {place : Nat} {delta : BlackboardDelta} (published : network.published[place]? = some delta)
    (readings : Nat → Int) (node intentId creator : String) :
    ((networkStep network (.deliver pubkey place readings)).nodes node).intentCreator.lookup
        intentId = some creator ↔
      (network.nodes node).intentCreator.lookup intentId = some creator ∨
        (node = pubkey ∧ ∃ record, Attributes (network.nodes pubkey) delta record ∧
          record.intentId = intentId ∧ delta.senderCompositorPubkey = creator) := by
  have single := sound.single delta (List.mem_of_getElem? published)
  simp only [networkStep, published]
  by_cases receiver : node = pubkey
  · subst receiver
    rw [Function.update_self, NetNode.applyDelta_creator _ _ _ single]
    simp only [true_and]
  · rw [Function.update_of_ne receiver]
    simp only [receiver, false_and, or_false]

theorem networkStep_sound {network : Network} (sound : NetworkSound network) (input : NetInput) :
    NetworkSound (networkStep network input) := by
  cases input with
  | call pubkey request =>
      rcases NetNode.call_frame (network.nodes pubkey) request with ⟨clock, single⟩
      refine ⟨?_, ?_, ?_⟩
      · exact (Function.forall_update_iff network.nodes
          (fun key node => node.gossipHlc.nodeId = key)).mpr
            ⟨by rw [clock, sound.keyed], fun other _ => sound.keyed other⟩
      · intro delta member
        rcases List.mem_append.mp member with earlier | added
        · exact sound.single delta earlier
        · exact single delta (Option.mem_toList.mp added)
      · intro intentId poster member
        rcases networkStep_call sound pubkey request with ⟨added, _, posters, creators⟩ |
          ⟨_, posters, creators⟩
        · rw [posters, List.mem_append, List.mem_singleton] at member
          rw [creators]
          rcases member with earlier | latest
          · split_ifs with same
            · rw [same.1]
            · exact sound.own intentId poster earlier
          · cases latest
            rw [if_pos ⟨rfl, rfl⟩]
        · rw [posters] at member
          rw [creators]
          exact sound.own intentId poster member
  | deliver pubkey place readings =>
      cases published : network.published[place]? with
      | none =>
          simp only [networkStep, published]
          exact sound
      | some delta =>
          refine ⟨?_, ?_, ?_⟩
          · simp only [networkStep, published]
            exact (Function.forall_update_iff network.nodes
              (fun key node => node.gossipHlc.nodeId = key)).mpr
                ⟨by rw [NetNode.applyDelta_nodeId, sound.keyed], fun other _ => sound.keyed other⟩
          · simp only [networkStep, published]
            exact sound.single
          · intro intentId poster member
            rw [networkStep_deliver_posters] at member
            exact (networkStep_deliver sound published readings poster intentId poster).mpr
              (.inl (sound.own intentId poster member))

theorem start_sound : NetworkSound Network.start := by
  refine ⟨fun _ => rfl, ?_, ?_⟩
  · intro delta member
    cases member
  · intro intentId pubkey member
    cases member

theorem reachable_sound (inputs : List NetInput) :
    NetworkSound (run networkStep Network.start inputs) := by
  apply Run.kept_run networkStep NetworkSound
  · intro network input sound
    exact networkStep_sound sound input
  · exact start_sound

/-- Creators are posters, and an intent has one. -/
structure Provenance (network : Network) : Prop where
  right : ∀ pubkey intentId creator,
    (network.nodes pubkey).intentCreator.lookup intentId = some creator →
      (intentId, creator) ∈ network.posters
  unique : ∀ intentId first second, (intentId, first) ∈ network.posters →
    (intentId, second) ∈ network.posters → first = second

theorem start_provenance : Provenance Network.start := by
  constructor
  · intro pubkey intentId creator known
    cases known
  · intro intentId first second member
    cases member

theorem networkStep_provenance {network : Network} (sound : NetworkSound network)
    (provenance : Provenance network) {input : NetInput} (allowed : FromOriginator network input) :
    Provenance (networkStep network input) := by
  cases input with
  | call pubkey request =>
      rcases networkStep_call sound pubkey request with ⟨added, posts, posters, creators⟩ |
        ⟨_, posters, creators⟩
      · have one := allowed added posts
        constructor
        · intro node intentId creator known
          rw [creators] at known
          rw [posters, List.mem_append, List.mem_singleton]
          split_ifs at known with same
          · cases known
            exact .inr (by rw [same.2])
          · exact .inl (provenance.right node intentId creator known)
        · intro intentId first second
          rw [posters]
          simp only [List.mem_append, List.mem_singleton, Prod.mk.injEq]
          rintro (early | ⟨same, rfl⟩) (late | ⟨also, rfl⟩)
          · exact provenance.unique intentId first second early late
          · exact one first (also ▸ early)
          · exact (one second (same ▸ late)).symm
          · rfl
      · constructor
        · intro node intentId creator known
          rw [creators] at known
          rw [posters]
          exact provenance.right node intentId creator known
        · rw [posters]
          exact provenance.unique
  | deliver pubkey place readings =>
      cases published : network.published[place]? with
      | none =>
          simp only [networkStep, published]
          exact provenance
      | some delta =>
          constructor
          · intro node intentId creator known
            rw [networkStep_deliver_posters]
            rcases (networkStep_deliver sound published readings node intentId creator).mp known with
              before | ⟨_, record, attributes, rfl, rfl⟩
            · exact provenance.right node intentId creator before
            · exact allowed delta published record attributes
          · rw [networkStep_deliver_posters]
            exact provenance.unique

/-- With creators that are posters and one poster for each intent, nodes agree and the filter
asks about the poster. -/
theorem attributed_of_provenance {network : Network} (provenance : Provenance network) :
    Attributed network := by
  refine ⟨provenance.right, ?_, ?_⟩
  · intro first second intentId creator other known also
    exact provenance.unique intentId creator other (provenance.right first intentId creator known)
      (provenance.right second intentId other also)
  · intro pubkey keep minReward tier limit nowNs all kept unfiltered filtered item member creator
      known poster posted
    have same : creator = poster := provenance.unique item.lineageRoot creator poster
      (provenance.right pubkey item.lineageRoot creator known) posted
    subst same
    have judged : (network.nodes pubkey).keepsItem keep item = (keep creator).getD true := by
      simp only [NetNode.keepsItem, known]
    rw [NetNode.getUnclaimed_filter unfiltered filtered, List.mem_filter, judged]
    exact and_iff_right member

/-- A step after which intents are attributed was one the condition allows. -/
theorem fromOriginator_of_attributed {network : Network} (sound : NetworkSound network)
    {input : NetInput} (attributed : Attributed (networkStep network input)) :
    FromOriginator network input := by
  cases input with
  | call pubkey request =>
      intro intentId posts poster member
      have after := networkStep_sound sound (.call pubkey request)
      have kept : (intentId, poster) ∈ (networkStep network (.call pubkey request)).posters :=
        List.mem_append_left _ member
      rcases networkStep_call sound pubkey request with ⟨added, posted, posters, creators⟩ |
        ⟨idle, _, _⟩
      · have same := NodeCall.Posts.unique posts posted
        subst same
        have own : ((networkStep network (.call pubkey request)).nodes pubkey).intentCreator.lookup
            intentId = some pubkey := by
          rw [creators, if_pos ⟨rfl, rfl⟩]
        exact attributed.agree poster pubkey intentId poster pubkey
          (after.own intentId poster kept) own
      · exact absurd posts (idle intentId)
  | deliver pubkey place readings =>
      intro delta published record attributes
      have known := (networkStep_deliver sound published readings pubkey record.intentId
        delta.senderCompositorPubkey).mpr (.inr ⟨rfl, record, attributes, rfl, rfl⟩)
      have member := attributed.originator pubkey _ _ known
      rw [networkStep_deliver_posters] at member
      exact member

/-- In every state of a run intents are attributed to whoever posted them if and only if each
step of the run meets the condition. -/
theorem intents_attributed_iff (inputs : List NetInput) :
    (∀ front rest, inputs = front ++ rest → Attributed (run networkStep Network.start front)) ↔
      Admissible networkStep FromOriginator Network.start inputs := by
  constructor
  · intro attributed
    apply Run.admissible_of_steps
    intro front input rest split
    apply fromOriginator_of_attributed (reachable_sound front)
    have next := attributed (front ++ [input]) rest (by rw [split, List.append_assoc]; rfl)
    rw [Run.run_append] at next
    exact next
  · intro admissible front rest split
    rw [split, Run.admissible_append] at admissible
    apply attributed_of_provenance
    have both := Run.invariant_run networkStep FromOriginator
      (fun network => NetworkSound network ∧ Provenance network)
      (fun network input holds allowed =>
        ⟨networkStep_sound holds.1 input, networkStep_provenance holds.1 holds.2 allowed⟩)
      Network.start front ⟨start_sound, start_provenance⟩ admissible.1
    exact both.2

deriving instance DecidableEq for HumanIntent

/-- A worker that received the intent posts work under it, and an observer receives that
work before it receives the intent. -/
def forwardedWork : List NetInput :=
  [.call "originator" (.postIntent "intent-1" "goal" 1 1), .deliver "worker" 0 (fun _ => 0),
    .call "worker" (.postWorkItem sampleItem)]

theorem forwardedWork_carries :
    ((run networkStep Network.start forwardedWork).published[1]?).map
      (fun delta => (delta.senderCompositorPubkey, delta.newIntents)) =
        some ("worker", [⟨"intent-1", "goal", 1⟩]) := by
  decide +kernel

theorem work_taken_for_origin :
    (run networkStep Network.start (forwardedWork ++ [.deliver "observer" 1 (fun _ => 0)])).posters =
        [("intent-1", "originator")] ∧
      ((run networkStep Network.start (forwardedWork ++ [.deliver "observer" 1 (fun _ => 0)])).nodes
        "observer").intentCreator.lookup "intent-1" = some "worker" ∧
      ¬Attributed (run networkStep Network.start
        (forwardedWork ++ [.deliver "observer" 1 (fun _ => 0)])) := by
  rcases Option.map_eq_some_iff.mp forwardedWork_carries with ⟨delta, published, carried⟩
  rw [Run.run_append, Run.run_cons, Run.run_nil]
  have posters : (networkStep (run networkStep Network.start forwardedWork)
      (.deliver "observer" 1 (fun _ => 0))).posters = [("intent-1", "originator")] := by
    decide +kernel
  have sender : delta.senderCompositorPubkey = "worker" := congrArg Prod.fst carried
  have intents : delta.newIntents = [⟨"intent-1", "goal", 1⟩] := congrArg Prod.snd carried
  have known : ((networkStep (run networkStep Network.start forwardedWork)
      (.deliver "observer" 1 (fun _ => 0))).nodes "observer").intentCreator.lookup "intent-1" =
        some "worker" := by
    rw [networkStep_deliver (reachable_sound forwardedWork) published]
    refine .inr ⟨rfl, ⟨"intent-1", "goal", 1⟩, ⟨?_, ?_, ?_, by decide, ?_⟩, rfl, sender⟩
    · rw [intents]
      exact List.mem_singleton_self _
    · rw [sender]
      decide +kernel
    · rw [sender]
      decide
    · decide +kernel
  refine ⟨posters, known, ?_⟩
  intro attributed
  have member := attributed.originator "observer" "intent-1" "worker" known
  rw [posters] at member
  revert member
  decide

end Gyza

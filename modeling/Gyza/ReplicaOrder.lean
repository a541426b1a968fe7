import Gyza.Replicas

/-! When two replicas that applied the same gossip hold the same rows. -/

namespace Gyza

/-- The greatest stamp of the claims, `(0, 0, "")` if none exceeds it. -/
def greatestStamp (updates : List ClaimUpdate) : Int × Int × String :=
  updates.foldl (fun best update => if Board.hlcLe update.stamp best then best else update.stamp)
    (0, 0, "")

theorem stamp_foldl_mergeClaim (updates : List ClaimUpdate)
    (binds : ∀ update ∈ updates, update.Binds) (row : WorkItem)
    (uncompleted : row.completedAtNs = none) :
    (updates.foldl WorkItem.mergeClaim row).stamp =
      updates.foldl (fun best update => if Board.hlcLe update.stamp best then best else update.stamp)
        row.stamp := by
  induction updates generalizing row with
  | nil => rfl
  | cons update rest ih =>
      have step : (row.mergeClaim update).stamp =
          if Board.hlcLe update.stamp row.stamp then row.stamp else update.stamp := by
        rw [WorkItem.mergeClaim, if_pos uncompleted]
        split_ifs with older
        · rw [Register.merge_skips claimRegister _ (Or.inr ((hlcLe_iff _ _).mp older))]
        · rw [hlcLe_iff, not_le] at older
          rw [Register.merge_takes claimRegister _ (binds update List.mem_cons_self) older]
          rfl
      rw [List.foldl_cons, List.foldl_cons, ← step]
      exact ih (fun other member => binds other (List.mem_cons_of_mem _ member)) _
        (mergeClaim_uncompleted uncompleted update)

/-- Two lists of claims leave a fresh row the same claim when they have the same greatest stamp. -/
theorem foldl_mergeClaim_congr {base : WorkItem} (uncompleted : base.completedAtNs = none)
    (initial : base.stamp = (0, 0, "")) {first second : List ClaimUpdate}
    (firstBinds : ∀ update ∈ first, update.Binds) (secondBinds : ∀ update ∈ second, update.Binds)
    (functional : ∀ one ∈ first, ∀ two ∈ second, one.stamp = two.stamp →
      one.agentPubkey = two.agentPubkey)
    (same : greatestStamp first = greatestStamp second) :
    first.foldl WorkItem.mergeClaim base = second.foldl WorkItem.mergeClaim base := by
  have firstStamp := stamp_foldl_mergeClaim first firstBinds base uncompleted
  have secondStamp := stamp_foldl_mergeClaim second secondBinds base uncompleted
  rw [initial] at firstStamp secondStamp
  have stamps : (first.foldl WorkItem.mergeClaim base).stamp =
      (second.foldl WorkItem.mergeClaim base).stamp :=
    firstStamp.trans (same.trans secondStamp.symm)
  rw [WorkItem.mergeClaim_of_uncompleted uncompleted, WorkItem.mergeClaim_of_uncompleted uncompleted]
    at stamps ⊢
  rcases Register.foldl_merge claimRegister ClaimUpdate.Binds first base with
    ⟨one, oneTop, oneResult⟩ | ⟨_, oneResult⟩
  · rcases Register.foldl_merge claimRegister ClaimUpdate.Binds second base with
      ⟨two, twoTop, twoResult⟩ | ⟨_, twoResult⟩
    · rw [oneResult, twoResult] at stamps ⊢
      exact writeClaim_congr stamps (functional one oneTop.listed two twoTop.listed stamps) base
    · rw [oneResult, twoResult] at stamps
      exact absurd (congrArg stampKey stamps) oneTop.exceeds.ne'
  · rcases Register.foldl_merge claimRegister ClaimUpdate.Binds second base with
      ⟨two, twoTop, twoResult⟩ | ⟨_, twoResult⟩
    · rw [oneResult, twoResult] at stamps
      exact absurd (congrArg stampKey stamps) twoTop.exceeds.ne
    · rw [oneResult, twoResult]

theorem foldl_mergeClaim_completion (updates : List ClaimUpdate) (row : WorkItem) :
    (updates.foldl WorkItem.mergeClaim row).completion = row.completion := by
  induction updates generalizing row with
  | nil => rfl
  | cons update rest ih => rw [List.foldl_cons, ih, WorkItem.mergeClaim_completion]

theorem finishRow_stamp (base : WorkItem) (claims : List ClaimUpdate)
    (completion : Option CompletionRecord) :
    (finishRow base claims completion).stamp = (claims.foldl WorkItem.mergeClaim base).stamp := by
  cases completion <;> rfl

theorem finishRow_completion (base : WorkItem) (claims : List ClaimUpdate)
    (completion : Option CompletionRecord) :
    (finishRow base claims completion).completion =
      (completion.map CompletionRecord.content).getD base.completion := by
  cases completion with
  | none => exact foldl_mergeClaim_completion claims base
  | some record => rfl

theorem writeCompletion_congr {first second : CompletionRecord}
    (same : first.content = second.content) (item : WorkItem) :
    item.writeCompletion first = item.writeCompletion second := by
  simp only [CompletionRecord.content, Completion.mk.injEq, Option.some.injEq] at same
  rw [WorkItem.writeCompletion, WorkItem.writeCompletion, same.1, same.2.1, same.2.2.1, same.2.2.2]

/-- Finished rows are equal exactly when their completions and their greatest stamps are. -/
theorem finishRow_eq_iff {base : WorkItem} (uncompleted : base.completedAtNs = none)
    (initial : base.stamp = (0, 0, "")) {first second : List ClaimUpdate}
    (firstBinds : ∀ update ∈ first, update.Binds) (secondBinds : ∀ update ∈ second, update.Binds)
    (functional : ∀ one ∈ first, ∀ two ∈ second, one.stamp = two.stamp →
      one.agentPubkey = two.agentPubkey) (one two : Option CompletionRecord) :
    finishRow base first one = finishRow base second two ↔
      one.map CompletionRecord.content = two.map CompletionRecord.content ∧
        greatestStamp first = greatestStamp second := by
  constructor
  · intro equal
    constructor
    · have completions := congrArg WorkItem.completion equal
      rw [finishRow_completion, finishRow_completion] at completions
      have times := congrArg Completion.completedAtNs completions
      cases one with
      | none =>
          cases two with
          | none => rfl
          | some record => exact absurd (uncompleted.symm.trans times) (Option.some_ne_none _).symm
      | some record =>
          cases two with
          | none => exact absurd (times.trans uncompleted) (Option.some_ne_none _)
          | some other => exact congrArg some completions
    · have stamps := congrArg WorkItem.stamp equal
      rw [finishRow_stamp, finishRow_stamp, stamp_foldl_mergeClaim first firstBinds base uncompleted,
        stamp_foldl_mergeClaim second secondBinds base uncompleted, initial] at stamps
      exact stamps
  · intro ⟨completions, stamps⟩
    have claims := foldl_mergeClaim_congr uncompleted initial firstBinds secondBinds functional stamps
    cases one with
    | none =>
        cases two with
        | none => exact claims
        | some record => cases completions
    | some record =>
        cases two with
        | none => cases completions
        | some other =>
            simp only [finishRow, claims]
            exact writeCompletion_congr (Option.some.inj completions) _

/-- What honest nodes emit: well-formed mutations, one item under each id, and one agent
behind each stamp of an item. -/
structure HonestSet (mutations : List Mutation) : Prop where
  honest : ∀ mutation ∈ mutations, mutation.Honest
  oneItem : ∀ id, ∀ first ∈ mutations, ∀ second ∈ mutations, ∀ item other,
    itemOf id first = some item → itemOf id second = some other → item = other
  oneAgent : ∀ id, ∀ first ∈ mutations, ∀ second ∈ mutations, ∀ update other,
    claimOf id first = some update → claimOf id second = some other →
      update.stamp = other.stamp → update.agentPubkey = other.agentPubkey

def SameSet (first second : List Mutation) : Prop :=
  ∀ mutation, mutation ∈ first ↔ mutation ∈ second

/-- The first completion and the greatest claim before it are the same in both orders. -/
def SameDecision (id : String) (first second : List Mutation) : Prop :=
  (firstCompletion id first).map CompletionRecord.content =
      (firstCompletion id second).map CompletionRecord.content ∧
    greatestStamp (claimsBeforeCompletion id first) =
      greatestStamp (claimsBeforeCompletion id second)

theorem mem_claimsBeforeCompletion {id : String} {mutations : List Mutation} {update : ClaimUpdate}
    (member : update ∈ claimsBeforeCompletion id mutations) :
    ∃ mutation ∈ mutations, claimOf id mutation = some update := by
  rcases List.mem_filterMap.mp member with ⟨mutation, taken, claimed⟩
  exact ⟨mutation, (List.takeWhile_prefix _).subset taken, claimed⟩

theorem claimOf_binds {id : String} {mutation : Mutation} {update : ClaimUpdate}
    (honest : mutation.Honest) (claimed : claimOf id mutation = some update) : update.Binds := by
  cases mutation with
  | claim other =>
      simp only [claimOf] at claimed
      split_ifs at claimed
      cases claimed
      exact honest
  | intent _ => cases claimed
  | item _ _ => cases claimed
  | completion _ => cases claimed

theorem claims_bind {id : String} {mutations : List Mutation} (honest : HonestSet mutations) :
    ∀ update ∈ claimsBeforeCompletion id mutations, update.Binds := by
  intro update member
  rcases mem_claimsBeforeCompletion member with ⟨mutation, listed, claimed⟩
  exact claimOf_binds (honest.honest mutation listed) claimed

theorem nothing_unrelated {id : String} {mutations : List Mutation}
    (unrelated : ∀ mutation ∈ mutations, mutation.about ≠ some id) :
    firstCompletion id mutations = none ∧ claimsBeforeCompletion id mutations = [] := by
  constructor
  · apply List.findSome?_eq_none_iff.mpr
    intro mutation member
    exact (parts_of_not_about (unrelated mutation member)).2
  · apply List.eq_nil_iff_forall_not_mem.mpr
    intro update member
    rcases mem_claimsBeforeCompletion member with ⟨mutation, listed, claimed⟩
    rw [(parts_of_not_about (unrelated mutation listed)).1] at claimed
    cases claimed

/-- Without its item, nothing else about an id has arrived. -/
theorem nothing_without_item {id : String} {mutations : List Mutation} (order : ItemsFirst mutations)
    (missing : mutations.findSome? (itemOf id) = none) :
    firstCompletion id mutations = none ∧ claimsBeforeCompletion id mutations = [] := by
  apply nothing_unrelated
  intro mutation member target
  rcases List.append_of_mem member with ⟨front, rest, split⟩
  rcases order front mutation rest split id target with ⟨earlier, inside, isItem⟩
  have absent := List.findSome?_eq_none_iff.mp missing earlier (split ▸ List.mem_append_left _ inside)
  rw [absent] at isItem
  cases isItem

theorem item_found_of_same {id : String} {first second : List Mutation} {base : WorkItem}
    (honest : HonestSet first) (same : SameSet first second)
    (found : first.findSome? (itemOf id) = some base) :
    second.findSome? (itemOf id) = some base := by
  rcases List.exists_of_findSome?_eq_some found with ⟨mutation, member, item⟩
  cases other : second.findSome? (itemOf id) with
  | none =>
      have absent := List.findSome?_eq_none_iff.mp other mutation ((same mutation).mp member)
      rw [absent] at item
      cases item
  | some item' =>
      rcases List.exists_of_findSome?_eq_some other with ⟨mutation', member', found'⟩
      rw [honest.oneItem id mutation member mutation' ((same mutation').mpr member') base item' item
        found']

theorem HonestSet.of_same {first second : List Mutation} (honest : HonestSet first)
    (same : SameSet first second) : HonestSet second := by
  constructor
  · intro mutation member
    exact honest.honest mutation ((same mutation).mpr member)
  · intro id one oneMember two twoMember
    exact honest.oneItem id one ((same one).mpr oneMember) two ((same two).mpr twoMember)
  · intro id one oneMember two twoMember
    exact honest.oneAgent id one ((same one).mpr oneMember) two ((same two).mpr twoMember)

/-- One row under two orders of the same mutations. -/
theorem rows_agree_iff {first second : List Mutation} (honest : HonestSet first)
    (same : SameSet first second) (firstOrder : ItemsFirst first) (secondOrder : ItemsFirst second)
    (id : String) :
    first.foldl (rowStep id) none = second.foldl (rowStep id) none ↔ SameDecision id first second := by
  rw [foldl_rowStep_none id first (fun front mutation rest split =>
      firstOrder front mutation rest split id),
    foldl_rowStep_none id second (fun front mutation rest split =>
      secondOrder front mutation rest split id)]
  cases found : first.findSome? (itemOf id) with
  | none =>
      have missing : second.findSome? (itemOf id) = none := by
        cases other : second.findSome? (itemOf id) with
        | none => rfl
        | some base =>
            have back := item_found_of_same (honest.of_same same) (fun mutation => (same mutation).symm)
              other
            rw [found] at back
            cases back
      rcases nothing_without_item firstOrder found with ⟨firstDone, firstClaims⟩
      rcases nothing_without_item secondOrder missing with ⟨secondDone, secondClaims⟩
      simp [missing, SameDecision, firstDone, firstClaims, secondDone, secondClaims]
  | some base =>
      rw [item_found_of_same honest same found, Option.map_some, Option.map_some, Option.some.injEq]
      rcases List.exists_of_findSome?_eq_some found with ⟨mutation, _, item⟩
      rcases itemOf_uncompleted item with ⟨uncompleted, initial⟩
      apply finishRow_eq_iff uncompleted initial (claims_bind honest)
        (claims_bind (honest.of_same same))
      intro one oneMember two twoMember
      rcases mem_claimsBeforeCompletion oneMember with ⟨oneMutation, oneListed, oneClaim⟩
      rcases mem_claimsBeforeCompletion twoMember with ⟨twoMutation, twoListed, twoClaim⟩
      exact honest.oneAgent id oneMutation oneListed twoMutation ((same twoMutation).mpr twoListed) one
        two oneClaim twoClaim

/-- A replica with no work items yet, and the deltas it applies, none of them its own. -/
structure FreshReplica (node : NetNode) (deliveries : List Delivery) : Prop where
  fresh : ∀ id, node.board.items.get? id = none
  remote : ∀ delivery ∈ deliveries, delivery.sender ≠ node.gossipHlc.nodeId

/-- The same mutations in two orders, each with every item before what is about it. -/
structure TwoOrders (first second : List Delivery) : Prop where
  honest : HonestSet (first.map Delivery.mutation)
  same : SameSet (first.map Delivery.mutation) (second.map Delivery.mutation)
  firstOrder : ItemsFirst (first.map Delivery.mutation)
  secondOrder : ItemsFirst (second.map Delivery.mutation)

theorem FreshReplica.row {node : NetNode} {deliveries : List Delivery}
    (replica : FreshReplica node deliveries) (honest : HonestSet (deliveries.map Delivery.mutation))
    (id : String) :
    (replay node deliveries).board.items.get? id =
      (deliveries.map Delivery.mutation).foldl (rowStep id) none := by
  rw [replay_row deliveries id node _ replica.remote, replica.fresh]
  intro delivery member
  exact honest.honest delivery.mutation (List.mem_map_of_mem member)

/-- Two replicas end with the same rows exactly when, for every item, the first completion
they applied and the greatest claim they applied before it are the same. -/
theorem replicas_agree_iff (one two : NetNode) (first second : List Delivery)
    (oneFresh : FreshReplica one first) (twoFresh : FreshReplica two second)
    (orders : TwoOrders first second) :
    (∀ id, (replay one first).board.items.get? id = (replay two second).board.items.get? id) ↔
      ∀ id, SameDecision id (first.map Delivery.mutation) (second.map Delivery.mutation) := by
  apply forall_congr'
  intro id
  rw [oneFresh.row orders.honest, twoFresh.row (orders.honest.of_same orders.same)]
  exact rows_agree_iff orders.honest orders.same orders.firstOrder orders.secondOrder id

/-! Without completions the greatest claim decides, and every order has the same one. -/

theorem stampKey_foldl_greatest (updates : List ClaimUpdate) (start : Int × Int × String) :
    stampKey start ≤ stampKey (updates.foldl (fun best update =>
      if Board.hlcLe update.stamp best then best else update.stamp) start) ∧
    (∀ update ∈ updates, stampKey update.stamp ≤ stampKey (updates.foldl (fun best update =>
      if Board.hlcLe update.stamp best then best else update.stamp) start)) ∧
    (updates.foldl (fun best update =>
        if Board.hlcLe update.stamp best then best else update.stamp) start = start ∨
      ∃ update ∈ updates, updates.foldl (fun best update =>
        if Board.hlcLe update.stamp best then best else update.stamp) start = update.stamp) := by
  induction updates generalizing start with
  | nil => exact ⟨le_rfl, by simp, Or.inl rfl⟩
  | cons update rest ih =>
      rw [List.foldl_cons]
      by_cases older : Board.hlcLe update.stamp start
      · rw [if_pos older]
        rcases ih start with ⟨above, greatest, origin⟩
        refine ⟨above, ?_, ?_⟩
        · intro other member
          rcases List.mem_cons.mp member with rfl | later
          · exact ((hlcLe_iff _ _).mp older).trans above
          · exact greatest other later
        · rcases origin with same | ⟨other, member, equal⟩
          · exact Or.inl same
          · exact Or.inr ⟨other, List.mem_cons_of_mem _ member, equal⟩
      · rw [if_neg older]
        rw [hlcLe_iff, not_le] at older
        rcases ih update.stamp with ⟨above, greatest, origin⟩
        refine ⟨older.le.trans above, ?_, ?_⟩
        · intro other member
          rcases List.mem_cons.mp member with rfl | later
          · exact above
          · exact greatest other later
        · right
          rcases origin with same | ⟨other, member, equal⟩
          · exact ⟨update, List.mem_cons_self, same⟩
          · exact ⟨other, List.mem_cons_of_mem _ member, equal⟩

theorem greatestStamp_le {first second : List ClaimUpdate}
    (subset : ∀ update ∈ first, update ∈ second) :
    stampKey (greatestStamp first) ≤ stampKey (greatestStamp second) := by
  rcases stampKey_foldl_greatest first (0, 0, "") with ⟨_, _, origin⟩
  rcases stampKey_foldl_greatest second (0, 0, "") with ⟨above, greatest, _⟩
  rcases origin with same | ⟨update, member, equal⟩
  · rw [greatestStamp, same]
    exact above
  · rw [greatestStamp, equal]
    exact greatest update (subset update member)

theorem mem_claims_of_uncompleted {id : String} {mutations : List Mutation}
    (none : firstCompletion id mutations = none) (update : ClaimUpdate) :
    update ∈ claimsBeforeCompletion id mutations ↔
      ∃ mutation ∈ mutations, claimOf id mutation = some update := by
  have whole : mutations.takeWhile (fun mutation => (completionOf id mutation).isNone) = mutations := by
    apply List.takeWhile_eq_self_iff.mpr
    intro mutation member
    simpa using List.findSome?_eq_none_iff.mp none mutation member
  rw [claimsBeforeCompletion, whole, List.mem_filterMap]

/-- Replicas agree on every item that no delta completes. -/
theorem row_agrees_of_uncompleted {first second : List Mutation} (honest : HonestSet first)
    (same : SameSet first second) (firstOrder : ItemsFirst first) (secondOrder : ItemsFirst second)
    (id : String) (pending : firstCompletion id first = none) :
    first.foldl (rowStep id) none = second.foldl (rowStep id) none := by
  have alsoPending : firstCompletion id second = none := by
    apply List.findSome?_eq_none_iff.mpr
    intro mutation member
    exact List.findSome?_eq_none_iff.mp pending mutation ((same mutation).mpr member)
  rw [rows_agree_iff honest same firstOrder secondOrder]
  refine ⟨by rw [pending, alsoPending], ?_⟩
  apply stampKey_injective
  apply le_antisymm
  · apply greatestStamp_le
    intro update member
    rcases (mem_claims_of_uncompleted pending update).mp member with ⟨mutation, listed, claimed⟩
    exact (mem_claims_of_uncompleted alsoPending update).mpr
      ⟨mutation, (same mutation).mp listed, claimed⟩
  · apply greatestStamp_le
    intro update member
    rcases (mem_claims_of_uncompleted alsoPending update).mp member with ⟨mutation, listed, claimed⟩
    exact (mem_claims_of_uncompleted pending update).mpr
      ⟨mutation, (same mutation).mpr listed, claimed⟩

/-! One item, two claims and one completion, in different orders. -/

def samplePosted : Mutation := .item ⟨"intent-1", "goal", 1⟩ (workItemToRecord sampleItem)

def sampleClaimed (late : Bool) : Mutation :=
  .claim (claimOnSample "agent" (if late then 7 else 5) 0 "node")

def sampleCompleted : Mutation := .completion ⟨"item-1", "out", "env", true, 2, "node"⟩

def fromPeer (mutation : Mutation) : Delivery := ⟨"peer", mutation, fun _ => 0⟩

def sampleReplica : NetNode := { board := Board.empty, gossipHlc := { nodeId := "replica" } }

theorem samplePosted_item : itemOf "item-1" samplePosted = some sampleItem.gossiped := by
  have keyed : (workItemToRecord sampleItem).id = "item-1" := rfl
  simp only [samplePosted, itemOf]
  rw [if_pos keyed, recordToWorkItem_workItemToRecord]

theorem sample_honest (rest : List Mutation)
    (listed : ∀ mutation ∈ rest, mutation = samplePosted ∨ (∃ late, mutation = sampleClaimed late) ∨
      mutation = sampleCompleted) : HonestSet rest := by
  constructor
  · intro mutation member
    rcases listed mutation member with rfl | ⟨late, rfl⟩ | rfl
    · exact ⟨by decide, rfl, sampleItem.gossiped, recordToWorkItem_workItemToRecord sampleItem,
        WorkItem.gossiped_binds (by decide +kernel)⟩
    · cases late
      · exact (by decide : (claimOnSample "agent" 5 0 "node").Binds)
      · exact (by decide : (claimOnSample "agent" 7 0 "node").Binds)
    · exact (by decide : FitsInt64 2)
  · intro id first firstMember second secondMember item other found foundOther
    rcases listed first firstMember with rfl | ⟨_, rfl⟩ | rfl
    · rcases listed second secondMember with rfl | ⟨_, rfl⟩ | rfl
      · exact Option.some.inj (found.symm.trans foundOther)
      · cases foundOther
      · cases foundOther
    · cases found
    · cases found
  · intro id first firstMember second secondMember update other found foundOther _
    have agent : ∀ mutation ∈ rest, ∀ claim, claimOf id mutation = some claim →
        claim.agentPubkey = "agent" := by
      intro mutation member claim claimed
      rcases listed mutation member with rfl | ⟨late, rfl⟩ | rfl
      · cases claimed
      · simp only [sampleClaimed, claimOf] at claimed
        split_ifs at claimed <;> cases claimed <;> rfl
      · cases claimed
    rw [agent first firstMember update found, agent second secondMember other foundOther]

theorem sample_itemsFirst (rest : List Mutation)
    (listed : ∀ mutation ∈ rest, (∃ late, mutation = sampleClaimed late) ∨
      mutation = sampleCompleted) : ItemsFirst (samplePosted :: rest) := by
  intro front mutation back split id target
  cases front with
  | nil =>
      rw [List.nil_append, List.cons.injEq] at split
      rw [← split.1] at target
      cases target
  | cons head front =>
      rw [List.cons_append, List.cons.injEq] at split
      refine ⟨head, List.mem_cons_self, ?_⟩
      have member : mutation ∈ rest := by
        rw [split.2]
        simp
      have item : id = "item-1" := by
        rcases listed mutation member with ⟨_, rfl⟩ | rfl <;> exact (Option.some.inj target).symm
      rw [← split.1, item, samplePosted_item]
      rfl

theorem sample_fresh (mutations : List Mutation) :
    FreshReplica sampleReplica (mutations.map fromPeer) := by
  constructor
  · intro id
    rfl
  · intro delivery member
    rcases List.mem_map.mp member with ⟨mutation, _, rfl⟩
    exact (by decide : "peer" ≠ "replica")

theorem fromPeer_mutations (mutations : List Mutation) :
    (mutations.map fromPeer).map Delivery.mutation = mutations := by
  rw [List.map_map]
  exact List.map_id mutations

theorem sample_orders (first second : List Mutation)
    (listed : ∀ mutation ∈ first, (∃ late, mutation = sampleClaimed late) ∨
      mutation = sampleCompleted) (same : SameSet first second) :
    TwoOrders ((samplePosted :: first).map fromPeer) ((samplePosted :: second).map fromPeer) := by
  have alsoListed : ∀ mutation ∈ second, (∃ late, mutation = sampleClaimed late) ∨
      mutation = sampleCompleted := by
    intro mutation member
    exact listed mutation ((same mutation).mpr member)
  constructor <;> simp only [fromPeer_mutations]
  · apply sample_honest
    intro mutation member
    rcases List.mem_cons.mp member with rfl | inside
    · exact Or.inl rfl
    · exact Or.inr (listed mutation inside)
  · intro mutation
    simp only [List.mem_cons, same mutation]
  · exact sample_itemsFirst first listed
  · exact sample_itemsFirst second alsoListed

theorem sample_unrelated (rest : List Mutation)
    (listed : ∀ mutation ∈ rest, (∃ late, mutation = sampleClaimed late) ∨
      mutation = sampleCompleted) (id : String) (other : id ≠ "item-1") :
    ∀ mutation ∈ samplePosted :: rest, mutation.about ≠ some id := by
  intro mutation member target
  rcases List.mem_cons.mp member with rfl | inside
  · cases target
  · rcases listed mutation inside with ⟨_, rfl⟩ | rfl <;> exact other (Option.some.inj target).symm

/-- Two claims in either order, then the completion: the rows are the same. -/
theorem replicas_agree_sample :
    (replay sampleReplica ([samplePosted, sampleClaimed false, sampleClaimed true,
      sampleCompleted].map fromPeer)).board.items.get? "item-1" =
    (replay sampleReplica ([samplePosted, sampleClaimed true, sampleClaimed false,
      sampleCompleted].map fromPeer)).board.items.get? "item-1" := by
  have orders := sample_orders [sampleClaimed false, sampleClaimed true, sampleCompleted]
    [sampleClaimed true, sampleClaimed false, sampleCompleted] (by simp) (by intro mutation; simp; tauto)
  apply (replicas_agree_iff sampleReplica sampleReplica _ _ (sample_fresh _) (sample_fresh _) orders).mpr
  intro id
  simp only [fromPeer_mutations]
  by_cases target : id = "item-1"
  · subst target
    exact ⟨by decide, by decide⟩
  · rcases nothing_unrelated (sample_unrelated
      [sampleClaimed false, sampleClaimed true, sampleCompleted] (by simp) id target) with ⟨done, claims⟩
    rcases nothing_unrelated (sample_unrelated
      [sampleClaimed true, sampleClaimed false, sampleCompleted] (by simp) id target) with
      ⟨otherDone, otherClaims⟩
    rw [SameDecision, done, claims, otherDone, otherClaims]
    exact ⟨rfl, rfl⟩

/-- A claim that arrives after the completion on one replica and before it on the other. -/
theorem replicas_disagree :
    ¬(∀ (one two : NetNode) (first second : List Delivery), FreshReplica one first →
      FreshReplica two second → TwoOrders first second →
        ∀ id, (replay one first).board.items.get? id = (replay two second).board.items.get? id) := by
  intro agree
  have orders := sample_orders [sampleClaimed false, sampleCompleted]
    [sampleCompleted, sampleClaimed false] (by simp) (by intro mutation; simp; tauto)
  have rows := agree sampleReplica sampleReplica _ _ (sample_fresh _) (sample_fresh _) orders "item-1"
  rw [(sample_fresh _).row orders.honest, (sample_fresh _).row (orders.honest.of_same orders.same),
    rows_agree_iff orders.honest orders.same orders.firstOrder orders.secondOrder] at rows
  simp only [fromPeer_mutations] at rows
  exact absurd rows.2 (by decide)

end Gyza

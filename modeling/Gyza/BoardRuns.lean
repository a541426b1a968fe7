import Gyza.Board
import Gyza.Lib.Run

/-! Whether a completed work item stays completed, over whole runs of the board. -/

namespace Gyza

open Run (run Admissible)
open Table (Rewrites)

/-! What each call does to the stored rows. -/

section Calls

variable (board : Board)

theorem postIntent_items (intentId goalSpecJson : String) (createdAtNs : Int) :
    (boardStep board (.postIntent intentId goalSpecJson createdAtNs)).items = board.items := by
  simp only [boardStep, Board.postIntentDirect]
  split_ifs <;> rfl

/-- A call that inserts the item as a new row. -/
structure Inserts (item : WorkItem) : Prop where
  binds : item.Binds
  fresh : board.items.get? item.id = none
  known : (board.intents.get? item.lineageRoot).isSome = true

theorem postWorkItem_inserts (item : WorkItem) (inserts : Inserts board item) (id : String) :
    (boardStep board (.postWorkItem item)).items.get? id =
      if item.id = id then some item else board.items.get? id := by
  simp only [boardStep, Board.postWorkItemDirect, if_pos inserts.binds, inserts.fresh,
    inserts.known, if_true, Option.isSome_none, Except.toOption]
  rw [if_neg (by decide), Option.getD_some, Table.get?_insertOrIgnore]
  by_cases same : item.id = id
  · subst same
    simp [inserts.fresh]
  · simp [same]

theorem postWorkItem_ignores (item : WorkItem) (ignored : ¬ Inserts board item) :
    (boardStep board (.postWorkItem item)).items = board.items := by
  simp only [boardStep, Board.postWorkItemDirect]
  split_ifs with binds present known
  · rfl
  · have fresh : board.items.get? item.id = none := by simpa using present
    exact absurd ⟨binds, fresh, known⟩ ignored
  · rfl
  · rfl

/-- A stamp whose three integers fit their columns. -/
def StampFits (hlcL hlcC : Int) : Prop :=
  FitsInt64 (hlcL * 1000000) ∧ FitsInt64 hlcL ∧ FitsInt64 hlcC

/-- The row a claim wins. -/
structure Takes (workItemId : String) (hlcL hlcC : Int) (claimantTier : Option Int)
    (row : WorkItem) : Prop where
  stored : board.items.get? workItemId = some row
  unclaimed : row.claimedBy = none
  tier : row.requiredTier ≤ claimantTier.getD 0
  fits : StampFits hlcL hlcC

theorem tryClaim_takes (workItemId agentPubkey : String) (hlcL hlcC : Int) (hlcNode : String)
    (claimantTier : Option Int) (row : WorkItem)
    (takes : Takes board workItemId hlcL hlcC claimantTier row) :
    Rewrites board.items
      (boardStep board (.tryClaim workItemId agentPubkey hlcL hlcC hlcNode claimantTier)).items row
      (row.withClaim agentPubkey hlcL hlcC hlcNode) := by
  have keyed : row.id = workItemId := ((Table.get?_eq_some _ _ _).mp takes.stored).2
  have fits : FitsInt64 (hlcL * 1000000) ∧ FitsInt64 hlcL ∧ FitsInt64 hlcC := takes.fits
  simp only [boardStep, Board.tryClaimDirect, takes.stored]
  rw [if_neg (not_not.mpr takes.unclaimed), if_neg (not_lt.mpr takes.tier), if_pos fits]
  apply Table.rewrites_update
  · intro item
    rfl
  · exact keyed ▸ takes.stored
  · simp [keyed, takes.unclaimed]
  · intro other holding
    simp only [decide_eq_true_eq] at holding
    exact holding.1.trans keyed.symm

theorem tryClaim_ignored (workItemId agentPubkey : String) (hlcL hlcC : Int) (hlcNode : String)
    (claimantTier : Option Int) (ignored : ∀ row, ¬Takes board workItemId hlcL hlcC claimantTier row) :
    (boardStep board (.tryClaim workItemId agentPubkey hlcL hlcC hlcNode claimantTier)).items =
      board.items := by
  simp only [boardStep, Board.tryClaimDirect]
  split
  · rfl
  · rename_i row stored
    split_ifs with held tier fits
    · rfl
    · rfl
    · exact absurd ⟨stored, not_not.mp held, not_lt.mp tier, fits⟩ (ignored row)
    · rfl

theorem tryClaim_items (workItemId agentPubkey : String) (hlcL hlcC : Int) (hlcNode : String)
    (claimantTier : Option Int) :
    (boardStep board (.tryClaim workItemId agentPubkey hlcL hlcC hlcNode claimantTier)).items =
        board.items ∨
      ∃ row, Takes board workItemId hlcL hlcC claimantTier row ∧ Rewrites board.items
        (boardStep board (.tryClaim workItemId agentPubkey hlcL hlcC hlcNode claimantTier)).items
        row (row.withClaim agentPubkey hlcL hlcC hlcNode) := by
  by_cases taken : ∃ row, Takes board workItemId hlcL hlcC claimantTier row
  · rcases taken with ⟨row, takes⟩
    exact Or.inr ⟨row, takes, tryClaim_takes board _ agentPubkey _ _ hlcNode _ row takes⟩
  · left
    exact tryClaim_ignored board _ agentPubkey _ _ hlcNode _ (fun row takes => taken ⟨row, takes⟩)

/-- The row a gossiped claim is merged into. -/
structure Merges (workItemId : String) (hlcL hlcC : Int) (hlcNode : String) (row : WorkItem) :
    Prop where
  stored : board.items.get? workItemId = some row
  uncompleted : row.completedAtNs = none
  newer : ¬Board.hlcLe (hlcL, hlcC, hlcNode) (row.claimHlcL, row.claimHlcC, row.claimHlcNode)
  fits : StampFits hlcL hlcC

theorem mergeClaim_merges (workItemId agentPubkey : String) (hlcL hlcC : Int) (hlcNode : String)
    (row : WorkItem) (merges : Merges board workItemId hlcL hlcC hlcNode row) :
    Rewrites board.items
      (boardStep board (.mergeClaim workItemId agentPubkey hlcL hlcC hlcNode)).items row
      (row.withClaim agentPubkey hlcL hlcC hlcNode) := by
  have keyed : row.id = workItemId := ((Table.get?_eq_some _ _ _).mp merges.stored).2
  have fits : FitsInt64 (hlcL * 1000000) ∧ FitsInt64 hlcL ∧ FitsInt64 hlcC := merges.fits
  simp only [boardStep, Board.mergeClaimDirect, merges.stored]
  rw [if_neg (not_not.mpr merges.uncompleted), if_neg merges.newer, if_pos fits]
  apply Table.rewrites_update
  · intro item
    rfl
  · exact keyed ▸ merges.stored
  · simp [keyed]
  · intro other holding
    simpa [keyed] using holding

theorem mergeClaim_ignored (workItemId agentPubkey : String) (hlcL hlcC : Int) (hlcNode : String)
    (ignored : ∀ row, ¬Merges board workItemId hlcL hlcC hlcNode row) :
    (boardStep board (.mergeClaim workItemId agentPubkey hlcL hlcC hlcNode)).items =
      board.items := by
  simp only [boardStep, Board.mergeClaimDirect]
  split
  · rfl
  · rename_i row stored
    split_ifs with done stale fits
    · rfl
    · rfl
    · exact absurd ⟨stored, not_not.mp done, stale, fits⟩ (ignored row)
    · rfl

theorem mergeClaim_items (workItemId agentPubkey : String) (hlcL hlcC : Int) (hlcNode : String) :
    (boardStep board (.mergeClaim workItemId agentPubkey hlcL hlcC hlcNode)).items =
        board.items ∨
      ∃ row, Merges board workItemId hlcL hlcC hlcNode row ∧ Rewrites board.items
        (boardStep board (.mergeClaim workItemId agentPubkey hlcL hlcC hlcNode)).items
        row (row.withClaim agentPubkey hlcL hlcC hlcNode) := by
  by_cases taken : ∃ row, Merges board workItemId hlcL hlcC hlcNode row
  · rcases taken with ⟨row, merges⟩
    exact Or.inr ⟨row, merges, mergeClaim_merges board _ agentPubkey _ _ _ row merges⟩
  · left
    exact mergeClaim_ignored board _ agentPubkey _ _ _ (fun row merges => taken ⟨row, merges⟩)

theorem mergeCompletion_items (workItemId outputHash icpEnvelopeHash : String) (success : Bool)
    (completedAtNs : Int) :
    ((boardStep board (.mergeCompletion workItemId outputHash icpEnvelopeHash success
        completedAtNs)).items = board.items ∧
      (FitsInt64 completedAtNs → ∀ row, board.items.get? workItemId = some row →
        row.completedAtNs ≠ none)) ∨
    ∃ row, row.id = workItemId ∧ row.completedAtNs = none ∧ FitsInt64 completedAtNs ∧
      Rewrites board.items (boardStep board (.mergeCompletion workItemId outputHash
        icpEnvelopeHash success completedAtNs)).items row
        (row.withCompletion outputHash icpEnvelopeHash success completedAtNs) := by
  simp only [boardStep, Board.mergeCompletionDirect]
  split
  · rename_i absent
    left
    refine ⟨rfl, ?_⟩
    intro _ row stored
    rw [absent] at stored
    cases stored
  · rename_i row stored
    have keyed : row.id = workItemId := ((Table.get?_eq_some _ _ _).mp stored).2
    subst keyed
    split_ifs with done fits
    · left
      refine ⟨rfl, ?_⟩
      intro _ other found
      rw [stored] at found
      cases found
      exact done
    · right
      refine ⟨row, rfl, not_not.mp done, fits, ?_⟩
      apply Table.rewrites_update
      · intro item
        rfl
      · exact stored
      · simpa using done
      · intro other holding
        simp only [decide_eq_true_eq] at holding
        exact holding.1
    · left
      exact ⟨rfl, fun fitting => absurd fitting fits⟩

theorem completeWorkItem_get? (workItemId outputHash icpEnvelopeHash : String) (success : Bool)
    (completedAtNs : Int) (expectedOwner : Option String) (id : String) :
    (boardStep board (.completeWorkItem workItemId outputHash icpEnvelopeHash success
        completedAtNs expectedOwner)).items.get? id =
      (board.items.get? id).map (fun row =>
        if FitsInt64 completedAtNs ∧ Board.completes workItemId expectedOwner row then
          row.withCompletion outputHash icpEnvelopeHash success completedAtNs
        else row) := by
  simp only [boardStep, Board.completeWorkItemDirect]
  by_cases fits : FitsInt64 completedAtNs
  · rw [if_pos fits]
    split_ifs with lost
    · simp only [Except.toOption, Option.getD_none]
      cases found : board.items.get? id with
      | none => rfl
      | some row =>
          have member : row ∈ board.items.rows := ((Table.get?_eq_some _ _ _).mp found).1
          have spared : Board.completes workItemId expectedOwner row = false := by
            simpa using List.any_eq_false.mp lost.2 row member
          simp [spared]
    · simp [Except.toOption, Table.get?_update, fits]
  · simp [fits, Except.toOption]

/-- Rows lose their claim only while uncompleted. -/
def Unclaims (before after : Board) : Prop :=
  ∀ id, after.items.get? id = before.items.get? id ∨
    ∃ row changed, before.items.get? id = some row ∧ after.items.get? id = some changed ∧
      row.completedAtNs = none ∧ changed.completion = row.completion

theorem releaseClaim_unclaims (workItemId : String) :
    Unclaims board (boardStep board (.releaseClaim workItemId)) := by
  intro id
  simp only [boardStep, Board.releaseClaim, Table.get?_update]
  cases stored : board.items.get? id with
  | none => exact Or.inl rfl
  | some row =>
      by_cases met : Board.releasable workItemId row = true
      · right
        have uncompleted : row.completedAtNs = none := by
          simp only [Board.releasable, decide_eq_true_eq] at met
          exact met.2.2
        exact ⟨row, row.released, rfl, by simp [met], uncompleted, rfl⟩
      · left
        simp [met]

theorem reclaimOne_unclaims (ids : List String) (selected : WorkItem) :
    Unclaims board (Board.reclaimOne (ids, board) selected).2 := by
  intro id
  simp only [Board.reclaimOne, Table.get?_update]
  cases stored : board.items.get? id with
  | none => exact Or.inl rfl
  | some row =>
      by_cases met : row.id = selected.id ∧ row.claimedBy = selected.claimedBy ∧
          row.completedAtNs = none
      · right
        exact ⟨row, row.reclaimed, rfl, by simp [met], met.2.2, rfl⟩
      · left
        simp [met]

theorem unclaims_trans {first second third : Board} (earlier : Unclaims first second)
    (later : Unclaims second third) : Unclaims first third := by
  intro id
  rcases later id with kept | ⟨middle, last, found, reached, uncompleted, same⟩
  · rw [kept]
    exact earlier id
  · right
    rcases earlier id with kept | ⟨row, changed, stored, moved, open_, agree⟩
    · exact ⟨middle, last, kept ▸ found, reached, uncompleted, same⟩
    · rw [found] at moved
      cases moved
      exact ⟨row, last, stored, reached, open_, same.trans agree⟩

theorem reclaimExpiredClaims_unclaims (leaseNs : Option Int) (nowNs : Int) :
    Unclaims board (boardStep board (.reclaimExpiredClaims leaseNs nowNs)) := by
  have loop : ∀ (selected : List WorkItem) (ids : List String) (current : Board),
      Unclaims current (selected.foldl Board.reclaimOne (ids, current)).2 := by
    intro selected
    induction selected with
    | nil =>
        intro ids current id
        exact Or.inl rfl
    | cons item rest ih =>
        intro ids current
        exact unclaims_trans (reclaimOne_unclaims current ids item) (ih _ _)
  simp only [boardStep, Board.reclaimExpiredClaims]
  split_ifs
  · exact loop _ _ _
  · intro id
    exact Or.inl rfl

/-! Every call but a post keeps each row in its place and changes it in four ways at most. -/

/-- The loop clears claims and does nothing else to a row. -/
theorem reworked_reclaimLoop {R : WorkItem → WorkItem → Prop} (same : ∀ row, R row row)
    (joins : ∀ first second third, R first second → R second third → R first third)
    (reclaim : ∀ row, R row row.reclaimed) (selected : List WorkItem) (ids : List String)
    (board : Board) :
    Table.Reworked R board.items (selected.foldl Board.reclaimOne (ids, board)).2.items := by
  induction selected generalizing ids board with
  | nil => exact .refl same _
  | cons item rest ih =>
      rw [List.foldl_cons]
      have first := Table.reworked_update same board.items
        (fun row => row.id = item.id ∧ row.claimedBy = item.claimedBy ∧ row.completedAtNs = none)
        WorkItem.reclaimed WorkItem.reclaimed_id reclaim
      exact Table.Reworked.trans joins first (ih _ _)

/-- A relation on rows that the changes of all calls respect. -/
structure RowRule (R : WorkItem → WorkItem → Prop) : Prop where
  refl : ∀ row, R row row
  trans : ∀ first second third, R first second → R second third → R first third
  claim : ∀ row agentPubkey hlcL hlcC hlcNode, R row (row.withClaim agentPubkey hlcL hlcC hlcNode)
  completion : ∀ row outputHash icpEnvelopeHash success completedAtNs,
    R row (row.withCompletion outputHash icpEnvelopeHash success completedAtNs)
  release : ∀ row, R row row.released
  reclaim : ∀ row, R row row.reclaimed

theorem RowRule.boardStep {R : WorkItem → WorkItem → Prop} (rule : RowRule R) (call : BoardCall)
    (posts : ∀ item, call ≠ .postWorkItem item) :
    Table.Reworked R board.items (Gyza.boardStep board call).items := by
  have same : Table.Reworked R board.items board.items := .refl rule.refl _
  cases call with
  | postIntent intentId goalSpecJson createdAtNs =>
      rw [postIntent_items]
      exact same
  | postWorkItem item => exact absurd rfl (posts item)
  | tryClaim workItemId agentPubkey hlcL hlcC hlcNode claimantTier =>
      simp only [Gyza.boardStep, Board.tryClaimDirect]
      split
      · exact same
      · split_ifs
        · exact same
        · exact same
        · exact Table.reworked_update rule.refl _ _ _ (fun row => row.withClaim_id _ _ _ _)
            fun row => rule.claim row _ _ _ _
        · exact same
  | mergeClaim workItemId agentPubkey hlcL hlcC hlcNode =>
      simp only [Gyza.boardStep, Board.mergeClaimDirect]
      split
      · exact same
      · split_ifs
        · exact same
        · exact same
        · exact Table.reworked_update rule.refl _ _ _ (fun row => row.withClaim_id _ _ _ _)
            fun row => rule.claim row _ _ _ _
        · exact same
  | mergeCompletion workItemId outputHash icpEnvelopeHash success completedAtNs =>
      simp only [Gyza.boardStep, Board.mergeCompletionDirect]
      split
      · exact same
      · split_ifs
        · exact same
        · exact Table.reworked_update rule.refl _ _ _ (fun row => row.withCompletion_id _ _ _ _)
            fun row => rule.completion row _ _ _ _
        · exact same
  | completeWorkItem workItemId outputHash icpEnvelopeHash success completedAtNs expectedOwner =>
      simp only [Gyza.boardStep, Board.completeWorkItemDirect]
      split_ifs
      · exact same
      · exact Table.reworked_update rule.refl _ _ _ (fun row => row.withCompletion_id _ _ _ _)
          fun row => rule.completion row _ _ _ _
      · exact same
  | releaseClaim workItemId =>
      exact Table.reworked_update rule.refl _ _ _ WorkItem.released_id rule.release
  | reclaimExpiredClaims leaseNs nowNs =>
      simp only [Gyza.boardStep, Board.reclaimExpiredClaims]
      split_ifs
      · exact reworked_reclaimLoop rule.refl rule.trans rule.reclaim _ [] board
      · exact same

theorem rowRule_id : RowRule fun row changed => changed.id = row.id where
  refl _ := rfl
  trans _ _ _ earlier later := later.trans earlier
  claim _ _ _ _ _ := rfl
  completion _ _ _ _ _ := rfl
  release _ := rfl
  reclaim _ := rfl

end Calls

theorem completes_iff (workItemId : String) (expectedOwner : Option String) (row : WorkItem) :
    Board.completes workItemId expectedOwner row = true ↔
      row.id = workItemId ∧ (expectedOwner = none ∨ row.claimedBy = expectedOwner) := by
  simp only [Board.completes, decide_eq_true_eq]

/-! What a call makes of one stored row. -/

inductive Changes (row : WorkItem) : BoardCall → WorkItem → Prop
  | kept (call : BoardCall) : Changes row call row
  | claimed {agentPubkey hlcNode : String} {hlcL hlcC : Int} {claimantTier : Option Int}
      (unclaimed : row.claimedBy = none) :
      Changes row (.tryClaim row.id agentPubkey hlcL hlcC hlcNode claimantTier)
        (row.withClaim agentPubkey hlcL hlcC hlcNode)
  | merged {agentPubkey hlcNode : String} {hlcL hlcC : Int} (uncompleted : row.completedAtNs = none) :
      Changes row (.mergeClaim row.id agentPubkey hlcL hlcC hlcNode)
        (row.withClaim agentPubkey hlcL hlcC hlcNode)
  | finished {outputHash icpEnvelopeHash : String} {success : Bool} {completedAtNs : Int}
      (fits : FitsInt64 completedAtNs) (uncompleted : row.completedAtNs = none) :
      Changes row (.mergeCompletion row.id outputHash icpEnvelopeHash success completedAtNs)
        (row.withCompletion outputHash icpEnvelopeHash success completedAtNs)
  | completed {outputHash icpEnvelopeHash : String} {success : Bool} {completedAtNs : Int}
      {expectedOwner : Option String} (fits : FitsInt64 completedAtNs)
      (owner : expectedOwner = none ∨ row.claimedBy = expectedOwner) :
      Changes row (.completeWorkItem row.id outputHash icpEnvelopeHash success completedAtNs
        expectedOwner) (row.withCompletion outputHash icpEnvelopeHash success completedAtNs)
  | released (held : row.claimedBy ≠ none) (uncompleted : row.completedAtNs = none) :
      Changes row (.releaseClaim row.id) row.released
  | reclaimed {leaseNs : Option Int} {nowNs : Int} (uncompleted : row.completedAtNs = none) :
      Changes row (.reclaimExpiredClaims leaseNs nowNs) row.reclaimed

section Rows

variable {board : Board} {id : String} {row : WorkItem}

theorem changes_of_same {next : Board} (stored : board.items.get? id = some row)
    (same : next.items.get? id = board.items.get? id) (call : BoardCall) :
    ∃ after, next.items.get? id = some after ∧ Changes row call after :=
  ⟨row, same.trans stored, .kept call⟩

theorem changes_of_rewrites {next : Board} {old changed : WorkItem} {call : BoardCall}
    (stored : board.items.get? id = some row)
    (rewrites : Rewrites board.items next.items old changed)
    (own : old = row → Changes row call changed) :
    ∃ after, next.items.get? id = some after ∧ Changes row call after := by
  rw [rewrites.after_get?]
  by_cases target : old.id = id
  · have found := rewrites.stored
    rw [target, stored] at found
    exact ⟨changed, if_pos target, own (Option.some.inj found).symm⟩
  · exact ⟨row, (if_neg target).trans stored, .kept call⟩

/-- The loop leaves the row, or clears its claim. -/
theorem reclaimExpiredClaims_changes (stored : board.items.get? id = some row)
    (leaseNs : Option Int) (nowNs : Int) :
    ∃ after, (boardStep board (.reclaimExpiredClaims leaseNs nowNs)).items.get? id = some after ∧
      Changes row (.reclaimExpiredClaims leaseNs nowNs) after := by
  have loop : ∀ selected : List WorkItem,
      Table.Reworked (fun row changed : WorkItem => changed = row ∨ changed = row.reclaimed)
        board.items (selected.foldl Board.reclaimOne ([], board)).2.items := by
    intro selected
    apply reworked_reclaimLoop
    · exact fun _ => Or.inl rfl
    · rintro first second third (rfl | rfl) (rfl | rfl)
      · exact Or.inl rfl
      · exact Or.inr rfl
      · exact Or.inr rfl
      · exact Or.inr rfl
    · exact fun _ => Or.inr rfl
  have reworked : Table.Reworked (fun row changed : WorkItem => changed = row ∨ changed = row.reclaimed)
      board.items (boardStep board (.reclaimExpiredClaims leaseNs nowNs)).items := by
    simp only [boardStep, Board.reclaimExpiredClaims]
    split_ifs
    · exact loop _
    · exact Table.Reworked.refl (fun row : WorkItem => Or.inl (rfl : row = row)) board.items
  obtain ⟨change, changed, found⟩ := reworked.get? (by
    rintro row changed (rfl | rfl)
    · rfl
    · rfl)
  have reached : (boardStep board (.reclaimExpiredClaims leaseNs nowNs)).items.get? id =
      some (change row) := by rw [found, stored, Option.map_some]
  refine ⟨change row, reached, ?_⟩
  rcases changed row with kept | cleared
  · rw [kept]
    exact .kept _
  · rcases reclaimExpiredClaims_unclaims board leaseNs nowNs id with
      same | ⟨old, after, known, _, uncompleted, _⟩
    · rw [reached, stored] at same
      rw [Option.some.inj same]
      exact .kept _
    · rw [stored] at known
      cases known
      rw [cleared]
      exact .reclaimed uncompleted

/-- A stored row stays in its place, and its call says what it has become. -/
theorem boardStep_changes (stored : board.items.get? id = some row) (call : BoardCall) :
    ∃ after, (boardStep board call).items.get? id = some after ∧ Changes row call after := by
  cases call with
  | postIntent intentId goalSpecJson createdAtNs =>
      exact changes_of_same stored (by rw [postIntent_items]) _
  | postWorkItem item =>
      apply changes_of_same stored
      by_cases inserts : Inserts board item
      · rw [postWorkItem_inserts board item inserts, if_neg]
        rintro rfl
        rw [inserts.fresh] at stored
        cases stored
      · rw [postWorkItem_ignores board item inserts]
  | tryClaim workItemId agentPubkey hlcL hlcC hlcNode claimantTier =>
      rcases tryClaim_items board workItemId agentPubkey hlcL hlcC hlcNode claimantTier with
        same | ⟨old, takes, rewrites⟩
      · exact changes_of_same stored (by rw [same]) _
      · apply changes_of_rewrites stored rewrites
        rintro rfl
        rw [← ((Table.get?_eq_some _ _ _).mp takes.stored).2]
        exact .claimed takes.unclaimed
  | mergeClaim workItemId agentPubkey hlcL hlcC hlcNode =>
      rcases mergeClaim_items board workItemId agentPubkey hlcL hlcC hlcNode with
        same | ⟨old, merges, rewrites⟩
      · exact changes_of_same stored (by rw [same]) _
      · apply changes_of_rewrites stored rewrites
        rintro rfl
        rw [← ((Table.get?_eq_some _ _ _).mp merges.stored).2]
        exact .merged merges.uncompleted
  | mergeCompletion workItemId outputHash icpEnvelopeHash success completedAtNs =>
      rcases mergeCompletion_items board workItemId outputHash icpEnvelopeHash success
        completedAtNs with ⟨same, _⟩ | ⟨old, target, uncompleted, fits, rewrites⟩
      · exact changes_of_same stored (by rw [same]) _
      · apply changes_of_rewrites stored rewrites
        rintro rfl
        rw [← target]
        exact .finished fits uncompleted
  | completeWorkItem workItemId outputHash icpEnvelopeHash success completedAtNs expectedOwner =>
      rw [completeWorkItem_get?, stored, Option.map_some]
      refine ⟨_, rfl, ?_⟩
      split_ifs with met
      · obtain ⟨target, owner⟩ := (completes_iff _ _ _).mp met.2
        rw [← target]
        exact .completed met.1 owner
      · exact .kept _
  | releaseClaim workItemId =>
      simp only [boardStep, Board.releaseClaim, Table.get?_update, stored, Option.map_some]
      refine ⟨_, rfl, ?_⟩
      split_ifs with met
      · simp only [Board.releasable, decide_eq_true_eq] at met
        rw [← met.1]
        exact .released met.2.1 met.2.2
      · exact .kept _
  | reclaimExpiredClaims leaseNs nowNs => exact reclaimExpiredClaims_changes stored leaseNs nowNs

end Rows

/-! A completed row stays completed as long as it is claimed. -/

def CompletedClaimed (board : Board) : Prop :=
  ∀ id row, board.items.get? id = some row → row.completedAtNs ≠ none → row.claimedBy ≠ none

def StaysCompleted (before after : Board) : Prop :=
  ∀ id row, before.items.get? id = some row → row.completedAtNs ≠ none →
    ∃ kept, after.items.get? id = some kept ∧ kept.completion = row.completion

theorem staysCompleted_refl (board : Board) : StaysCompleted board board := by
  intro id row stored _
  exact ⟨row, stored, rfl⟩

theorem staysCompleted_trans (first second third : Board) (earlier : StaysCompleted first second)
    (later : StaysCompleted second third) : StaysCompleted first third := by
  intro id row stored completed
  rcases earlier id row stored completed with ⟨middle, moved, same⟩
  have still : middle.completedAtNs ≠ none := by
    have equal : middle.completedAtNs = row.completedAtNs := congrArg Completion.completedAtNs same
    rw [equal]
    exact completed
  rcases later id middle moved still with ⟨kept, reached, agree⟩
  exact ⟨kept, reached, agree.trans same⟩

/-- What a call must not do: write a completion on a row nobody has claimed, or
a different one on a completed row. -/
def KeepsFinality (board : Board) : BoardCall → Prop
  | .postWorkItem item =>
      Inserts board item → item.completedAtNs ≠ none → item.claimedBy ≠ none
  | .mergeCompletion workItemId _ _ _ completedAtNs =>
      FitsInt64 completedAtNs → ∀ row, board.items.get? workItemId = some row →
        row.completedAtNs = none → row.claimedBy ≠ none
  | .completeWorkItem workItemId outputHash icpEnvelopeHash success completedAtNs expectedOwner =>
      FitsInt64 completedAtNs → ∀ row, board.items.get? workItemId = some row →
        (expectedOwner = none ∨ row.claimedBy = expectedOwner) →
          row.claimedBy ≠ none ∧
            (row.completedAtNs ≠ none → row.completion =
              ⟨some completedAtNs, some outputHash, some icpEnvelopeHash, some success⟩)
  | _ => True

section Steps

variable {board next : Board}

theorem claimed_of_same (same : next.items = board.items) (claimed : CompletedClaimed board) :
    CompletedClaimed next := by
  intro id row stored
  rw [same] at stored
  exact claimed id row stored

theorem claimed_of_rewrites {row changed : WorkItem}
    (rewrites : Rewrites board.items next.items row changed) (claimed : CompletedClaimed board)
    (held : changed.completedAtNs ≠ none → changed.claimedBy ≠ none) : CompletedClaimed next := by
  intro id found stored
  rw [rewrites.after_get?] at stored
  split_ifs at stored
  · cases stored
    exact held
  · exact claimed id found stored

theorem claimed_of_unclaims (unclaims : Unclaims board next) (claimed : CompletedClaimed board) :
    CompletedClaimed next := by
  intro id row stored completed
  rcases unclaims id with kept | ⟨old, changed, found, reached, uncompleted, same⟩
  · exact claimed id row (kept ▸ stored) completed
  · rw [reached] at stored
    cases stored
    have equal : row.completedAtNs = old.completedAtNs := congrArg Completion.completedAtNs same
    exact absurd (equal.trans uncompleted) completed

theorem claimed_of_post (item : WorkItem) (claimed : CompletedClaimed board)
    (allowed : KeepsFinality board (.postWorkItem item)) :
    CompletedClaimed (boardStep board (.postWorkItem item)) := by
  by_cases inserts : Inserts board item
  · intro id row stored
    rw [postWorkItem_inserts board item inserts] at stored
    split_ifs at stored
    · cases stored
      exact allowed inserts
    · exact claimed id row stored
  · exact claimed_of_same (postWorkItem_ignores board item inserts) claimed

theorem claimed_of_complete (workItemId outputHash icpEnvelopeHash : String) (success : Bool)
    (completedAtNs : Int) (expectedOwner : Option String) (claimed : CompletedClaimed board)
    (allowed : KeepsFinality board (.completeWorkItem workItemId outputHash icpEnvelopeHash
      success completedAtNs expectedOwner)) :
    CompletedClaimed (boardStep board (.completeWorkItem workItemId outputHash icpEnvelopeHash
      success completedAtNs expectedOwner)) := by
  intro id row stored
  rw [completeWorkItem_get?] at stored
  rcases Option.map_eq_some_iff.mp stored with ⟨old, found, changed⟩
  split_ifs at changed with met
  · subst changed
    intro _
    obtain ⟨target, owner⟩ := (completes_iff workItemId expectedOwner old).mp met.2
    have keyed : old.id = id := ((Table.get?_eq_some _ _ _).mp found).2
    exact (allowed met.1 old (target ▸ keyed ▸ found) owner).1
  · subst changed
    exact claimed id old found

theorem boardStep_claimed (call : BoardCall) (claimed : CompletedClaimed board)
    (allowed : KeepsFinality board call) : CompletedClaimed (boardStep board call) := by
  cases call with
  | postIntent intentId goalSpecJson createdAtNs =>
      exact claimed_of_same (postIntent_items board intentId goalSpecJson createdAtNs) claimed
  | postWorkItem item => exact claimed_of_post item claimed allowed
  | tryClaim workItemId agentPubkey hlcL hlcC hlcNode claimantTier =>
      rcases tryClaim_items board workItemId agentPubkey hlcL hlcC hlcNode claimantTier with
        same | ⟨row, _, rewrites⟩
      · exact claimed_of_same same claimed
      · exact claimed_of_rewrites rewrites claimed (fun _ => Option.some_ne_none _)
  | mergeClaim workItemId agentPubkey hlcL hlcC hlcNode =>
      rcases mergeClaim_items board workItemId agentPubkey hlcL hlcC hlcNode with
        same | ⟨row, _, rewrites⟩
      · exact claimed_of_same same claimed
      · exact claimed_of_rewrites rewrites claimed (fun _ => Option.some_ne_none _)
  | mergeCompletion workItemId outputHash icpEnvelopeHash success completedAtNs =>
      rcases mergeCompletion_items board workItemId outputHash icpEnvelopeHash success
        completedAtNs with ⟨same, _⟩ | ⟨row, target, uncompleted, fits, rewrites⟩
      · exact claimed_of_same same claimed
      · have held : row.claimedBy ≠ none :=
          allowed fits row (target ▸ rewrites.stored) uncompleted
        exact claimed_of_rewrites rewrites claimed (fun _ => held)
  | completeWorkItem workItemId outputHash icpEnvelopeHash success completedAtNs expectedOwner =>
      exact claimed_of_complete workItemId outputHash icpEnvelopeHash success completedAtNs
        expectedOwner claimed allowed
  | releaseClaim workItemId =>
      exact claimed_of_unclaims (releaseClaim_unclaims board workItemId) claimed
  | reclaimExpiredClaims leaseNs nowNs =>
      exact claimed_of_unclaims (reclaimExpiredClaims_unclaims board leaseNs nowNs) claimed

theorem boardStep_stays (call : BoardCall) (allowed : KeepsFinality board call) :
    StaysCompleted board (boardStep board call) := by
  intro id row stored completed
  obtain ⟨after, reached, changes⟩ := boardStep_changes stored call
  refine ⟨after, reached, ?_⟩
  have keyed : row.id = id := ((Table.get?_eq_some _ _ _).mp stored).2
  cases changes with
  | kept => rfl
  | claimed => rfl
  | merged => rfl
  | finished _ uncompleted => exact absurd uncompleted completed
  | completed fits owner => exact ((allowed fits row (keyed ▸ stored) owner).2 completed).symm
  | released _ uncompleted => exact absurd uncompleted completed
  | reclaimed uncompleted => exact absurd uncompleted completed

/-- One call that meets the condition keeps the invariant and every completion. -/
theorem boardStep_final (call : BoardCall) (claimed : CompletedClaimed board)
    (allowed : KeepsFinality board call) :
    CompletedClaimed (boardStep board call) ∧ StaysCompleted board (boardStep board call) :=
  ⟨boardStep_claimed call claimed allowed, boardStep_stays call allowed⟩

/-- A call that does not meet the condition breaks one of the two at once. -/
theorem keepsFinality_of_final (call : BoardCall)
    (claimed : CompletedClaimed (boardStep board call))
    (stays : StaysCompleted board (boardStep board call)) : KeepsFinality board call := by
  cases call with
  | postWorkItem item =>
      intro inserts
      apply claimed item.id item
      rw [postWorkItem_inserts board item inserts, if_pos rfl]
  | mergeCompletion workItemId outputHash icpEnvelopeHash success completedAtNs =>
      intro fits row stored uncompleted
      rcases mergeCompletion_items board workItemId outputHash icpEnvelopeHash success
        completedAtNs with ⟨_, blocked⟩ | ⟨found, target, _, _, rewrites⟩
      · exact absurd uncompleted (blocked fits row stored)
      · have same : found = row := by
          have reached := rewrites.stored
          rw [target, stored] at reached
          exact (Option.some.inj reached).symm
        subst same
        apply claimed found.id (found.withCompletion outputHash icpEnvelopeHash success
          completedAtNs)
        · rw [rewrites.after_get?, if_pos rfl]
        · exact Option.some_ne_none _
  | completeWorkItem workItemId outputHash icpEnvelopeHash success completedAtNs expectedOwner =>
      intro fits row stored owner
      have keyed : row.id = workItemId := ((Table.get?_eq_some _ _ _).mp stored).2
      have met := (completes_iff workItemId expectedOwner row).mpr ⟨keyed, owner⟩
      have after := completeWorkItem_get? board workItemId outputHash icpEnvelopeHash success
        completedAtNs expectedOwner workItemId
      rw [stored, Option.map_some, if_pos ⟨fits, met⟩] at after
      constructor
      · exact claimed workItemId (row.withCompletion outputHash icpEnvelopeHash success
          completedAtNs) after (Option.some_ne_none _)
      · intro completed
        rcases stays workItemId row stored completed with ⟨kept, reached, same⟩
        rw [after] at reached
        cases reached
        exact same.symm
  | _ => trivial

end Steps

/-! What a board offers. -/

/-- The row is not served, and no claim on it succeeds. -/
def NotOffered (board : Board) (item : WorkItem) : Prop :=
  (∀ minReward tier limit nowNs served,
    board.getUnclaimed minReward tier limit nowNs = .ok served →
      ∀ offered ∈ served, offered.id ≠ item.id) ∧
  ∀ agentPubkey hlcL hlcC hlcNode claimantTier next,
    board.tryClaimDirect item.id agentPubkey hlcL hlcC hlcNode claimantTier ≠ .ok (true, next)

theorem mem_limited {limit : Option Int} {items : List WorkItem} {item : WorkItem}
    (member : item ∈ Board.limited limit items) : item ∈ items := by
  unfold Board.limited at member
  split at member
  · exact member
  · split_ifs at member
    · exact member
    · exact List.mem_of_mem_take member

theorem getUnclaimed_ok {board : Board} {minReward : Float} {tier : Int} {limit : Option Int}
    {nowNs : Int} {served : List WorkItem}
    (returned : board.getUnclaimed minReward tier limit nowNs = .ok served) :
    ∀ offered ∈ served, offered ∈ board.items.rows ∧ offered.claimedBy = none := by
  intro offered member
  simp only [Board.getUnclaimed] at returned
  split_ifs at returned
  cases returned
  have chosen := mem_limited (List.mem_filter.mp member).1
  rw [List.mem_insertionSort, List.mem_filter] at chosen
  simp only [decide_eq_true_eq] at chosen
  exact ⟨chosen.1, chosen.2.1⟩

theorem notOffered_of_claimed {board : Board} {item : WorkItem} (member : item ∈ board.items.rows)
    (held : item.claimedBy ≠ none) : NotOffered board item := by
  have stored := (Table.mem_rows board.items item).mp member
  constructor
  · intro minReward tier limit nowNs served returned offered chosen same
    rcases getUnclaimed_ok returned offered chosen with ⟨present, unclaimed⟩
    have found := (Table.mem_rows board.items offered).mp present
    rw [same, stored] at found
    cases found
    exact held unclaimed
  · intro agentPubkey hlcL hlcC hlcNode claimantTier next
    simp [Board.tryClaimDirect, stored, held]

theorem claimed_of_notOffered {board : Board} {item : WorkItem} (member : item ∈ board.items.rows)
    (hidden : NotOffered board item) : item.claimedBy ≠ none := by
  have stored := (Table.mem_rows board.items item).mp member
  intro unclaimed
  apply hidden.2 "" 0 0 "" (some item.requiredTier)
  simp only [Board.tryClaimDirect, stored, unclaimed]
  rw [if_neg (by simp), if_neg (by simp), if_pos (by decide)]

/-- In every state of the run a completed item is neither served nor claimable,
and every later state has the same completion for it. -/
def CompletionsFinal (calls : List BoardCall) : Prop :=
  ∀ front middle rest, calls = front ++ middle ++ rest →
    ∀ item ∈ (run boardStep Board.empty front).items.rows, item.completedAtNs ≠ none →
      NotOffered (run boardStep Board.empty front) item ∧
        ∃ kept ∈ (run boardStep Board.empty (front ++ middle)).items.rows,
          kept.id = item.id ∧ kept.completion = item.completion

theorem completedClaimed_empty : CompletedClaimed Board.empty := by
  intro id row stored
  cases stored

theorem completions_final_iff (calls : List BoardCall) :
    CompletionsFinal calls ↔ Admissible boardStep KeepsFinality Board.empty calls := by
  constructor
  · intro final
    apply Run.admissible_of_steps
    intro front call rest split
    apply keepsFinality_of_final
    · intro id row stored completed
      rcases (Table.get?_eq_some _ _ _).mp stored with ⟨member, _⟩
      have reached : boardStep (run boardStep Board.empty front) call =
          run boardStep Board.empty (front ++ [call]) := by
        rw [Run.run_append, Run.run_cons, Run.run_nil]
      rw [reached] at member
      exact claimed_of_notOffered member
        (final (front ++ [call]) [] rest (by simp [split]) row member completed).1
    · intro id row stored completed
      rcases (Table.get?_eq_some _ _ _).mp stored with ⟨member, keyed⟩
      rcases (final front [call] rest (by simp [split]) row member completed).2 with
        ⟨kept, present, same, agree⟩
      rw [Run.run_append, Run.run_cons, Run.run_nil] at present
      exact ⟨kept, (Table.get?_eq_some _ _ _).mpr ⟨present, same.trans keyed⟩, agree⟩
  · intro admissible front middle rest split item member completed
    rw [split, Run.admissible_append, Run.admissible_append] at admissible
    have claimed : CompletedClaimed (run boardStep Board.empty front) :=
      Run.invariant_run boardStep KeepsFinality CompletedClaimed
        (fun _ call holds allowed => (boardStep_final call holds allowed).1)
        Board.empty front completedClaimed_empty admissible.1.1
    have stays : StaysCompleted (run boardStep Board.empty front)
        (run boardStep (run boardStep Board.empty front) middle) :=
      Run.related_run boardStep KeepsFinality CompletedClaimed StaysCompleted
        staysCompleted_refl staysCompleted_trans
        (fun _ call holds allowed => boardStep_final call holds allowed)
        _ middle claimed admissible.1.2
    have stored := (Table.mem_rows _ item).mp member
    constructor
    · exact notOffered_of_claimed member (claimed item.id item stored completed)
    · rcases stays item.id item stored completed with ⟨kept, reached, agree⟩
      rcases (Table.get?_eq_some _ _ _).mp reached with ⟨present, keyed⟩
      rw [← Run.run_append] at present
      exact ⟨kept, present, keyed, agree⟩

/-- A plain item of the lowest tier under the intent `intent-1`. -/
def sampleItem : WorkItem where
  id := "item-1"
  lineageRoot := "intent-1"
  parentId := none
  description := "summarise"
  descEmbedding := List.replicate embeddingDim 0
  reward := 0.5
  rewardUpdatedNs := 1
  requiredTier := 0
  inputHashes := []
  outputSpec := []
  streamingOk := false
  claimedBy := none
  claimedAtNs := none
  claimHlcL := 0
  claimHlcC := 0
  claimHlcNode := ""
  completedAtNs := none
  outputHash := none
  icpEnvelopeHash := none
  success := none
  createdAtNs := 1
  ttlNs := 1000
  descEmbedding_shape := List.length_replicate
  reward_range := by decide +kernel
  requiredTier_range := by decide

/-- A completion is gossiped for an item that nobody has claimed on this board. -/
def gossipedCompletion : List BoardCall :=
  [.postIntent "intent-1" "goal" 1, .postWorkItem sampleItem,
    .mergeCompletion "item-1" "out" "env" true 2]

/-- The completed item is still claimable. -/
theorem completed_item_offered : ¬ CompletionsFinal gossipedCompletion := by
  intro final
  have completed : ((run boardStep Board.empty gossipedCompletion).items.get? "item-1").map
      WorkItem.completedAtNs = some (some 2) := by decide +kernel
  rcases Option.map_eq_some_iff.mp completed with ⟨item, stored, time⟩
  rcases (Table.get?_eq_some _ _ _).mp stored with ⟨member, keyed⟩
  have unclaimed : ((run boardStep Board.empty gossipedCompletion).items.get? "item-1").map
      WorkItem.claimedBy = some none := by decide +kernel
  rw [stored, Option.map_some] at unclaimed
  have hidden := (final gossipedCompletion [] [] (by simp) item member (by simp [time])).1
  exact claimed_of_notOffered member hidden (Option.some.inj unclaimed)

end Gyza

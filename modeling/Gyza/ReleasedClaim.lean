import Gyza.ClaimLease
import Gyza.ClaimMerge

/-! Whether a gossiped claim comes back after it was released, over all calls that
follow its first delivery. -/

namespace Gyza

open Run (run)

/-- Where the item has no holder, no delivery of the claim, or of an older one, gives it one. -/
def StaysReleased (update : ClaimUpdate) (board : Board) : Prop :=
  ∀ row, board.items.get? update.workItemId = some row → row.claimedBy = none →
    ∀ late : ClaimUpdate, late.workItemId = update.workItemId →
      Board.hlcLe late.stamp update.stamp →
        ∀ after, (boardStep board late.call).items.get? update.workItemId = some after →
          after.claimedBy = none

/-- A call that clears the item's claim leaves a stamp that is not below the update's:
`release_claim` resets it, `reclaim_expired_claims` leaves the one of the expired claim. -/
def ClearsAbove (update : ClaimUpdate) (board : Board) : BoardCall → Prop
  | .releaseClaim workItemId => ∀ row, board.items.get? update.workItemId = some row →
      Board.releasable workItemId row = true → Board.hlcLe update.stamp (0, 0, "")
  | .reclaimExpiredClaims leaseNs nowNs =>
      FitsInt64 (nowNs - leaseNs.getD Board.claimLeaseNs) →
        ∀ row, board.items.get? update.workItemId = some row →
          Board.leaseExpired (nowNs - leaseNs.getD Board.claimLeaseNs) row = true →
            Board.hlcLe update.stamp row.stamp
  | _ => True

/-- Without a holder, an uncompleted row keeps a stamp that is not below the update's. -/
def RowGuards (update : ClaimUpdate) (row : WorkItem) : Prop :=
  row.claimedBy = none → row.completedAtNs = none → stampKey update.stamp ≤ stampKey row.stamp

def Guarded (update : ClaimUpdate) (board : Board) : Prop :=
  ∃ row, board.items.get? update.workItemId = some row ∧ RowGuards update row

theorem guarded_iff {update : ClaimUpdate} {board : Board} {row : WorkItem}
    (stored : board.items.get? update.workItemId = some row) :
    Guarded update board ↔ RowGuards update row := by
  simp [Guarded, stored]

/-- A claim that was stored once is held off by nothing but the stamp of the row. -/
theorem staysReleased_iff {update : ClaimUpdate} {board : Board} {row : WorkItem}
    (binds : update.Binds) (stored : board.items.get? update.workItemId = some row) :
    StaysReleased update board ↔ RowGuards update row := by
  constructor
  · intro stays free uncompleted
    by_contra below
    have merged := mergeClaim_get? board update update.workItemId
    rw [stored, Option.map_some, if_pos rfl, WorkItem.mergeClaim, if_pos uncompleted,
      Register.merge_takes claimRegister ClaimUpdate.Binds binds (not_le.mp below)] at merged
    have ended := stays row stored free update rfl ((hlcLe_iff _ _).mpr le_rfl) _ merged
    exact Option.some_ne_none _ ended
  · intro guards other found free late about older after reached
    rw [stored] at found
    cases found
    rw [mergeClaim_get?, stored, Option.map_some, if_pos about, Option.some.injEq] at reached
    rw [← reached, WorkItem.mergeClaim]
    split_ifs with uncompleted
    · have held : stampKey late.stamp ≤ stampKey row.stamp :=
        ((hlcLe_iff _ _).mp older).trans (guards free uncompleted)
      rw [Register.merge_skips claimRegister ClaimUpdate.Binds (Or.inr held)]
      exact free
    · exact free

/-! What a call leaves of a row. -/

variable {board : Board} {id : String} {row : WorkItem}

/-- No call but the two that clear a claim takes a holder away. -/
theorem kept_or_busy (stored : board.items.get? id = some row) (call : BoardCall)
    (keeps : ∀ workItemId, call ≠ .releaseClaim workItemId)
    (holds : ∀ leaseNs nowNs, call ≠ .reclaimExpiredClaims leaseNs nowNs) :
    ∃ after, (boardStep board call).items.get? id = some after ∧
      (after = row ∨ after.claimedBy ≠ none ∨ after.completedAtNs ≠ none) := by
  obtain ⟨after, reached, changes⟩ := boardStep_changes stored call
  refine ⟨after, reached, ?_⟩
  cases changes with
  | kept => exact Or.inl rfl
  | claimed => exact Or.inr (Or.inl (Option.some_ne_none _))
  | merged => exact Or.inr (Or.inl (Option.some_ne_none _))
  | finished => exact Or.inr (Or.inr (Option.some_ne_none _))
  | completed => exact Or.inr (Or.inr (Option.some_ne_none _))
  | released => exact absurd rfl (keeps row.id)
  | reclaimed => exact absurd rfl (holds _ _)

theorem releaseClaim_get? (stored : board.items.get? id = some row) (workItemId : String) :
    (boardStep board (.releaseClaim workItemId)).items.get? id =
      some (if Board.releasable workItemId row = true then row.released else row) := by
  simp only [boardStep, Board.releaseClaim, Table.get?_update, stored, Option.map_some]

/-- Reclaiming never touches a stamp or a completion. -/
theorem reclaimExpiredClaims_stamp (stored : board.items.get? id = some row)
    (leaseNs : Option Int) (nowNs : Int) :
    ∃ after, (boardStep board (.reclaimExpiredClaims leaseNs nowNs)).items.get? id = some after ∧
      after.stamp = row.stamp ∧ after.completedAtNs = row.completedAtNs := by
  obtain ⟨after, reached, changes⟩ := reclaimExpiredClaims_changes stored leaseNs nowNs
  refine ⟨after, reached, ?_⟩
  cases changes with
  | kept => exact ⟨rfl, rfl⟩
  | reclaimed => exact ⟨rfl, rfl⟩

/-- No call deletes a row. -/
theorem row_kept (call : BoardCall) (stored : ∃ row, board.items.get? id = some row) :
    ∃ row, (boardStep board call).items.get? id = some row := by
  rcases stored with ⟨row, stored⟩
  obtain ⟨after, reached, _⟩ := boardStep_changes stored call
  exact ⟨after, reached⟩

/-! The guard along a run. -/

variable {update : ClaimUpdate}

theorem release_guarded_iff (stored : board.items.get? update.workItemId = some row)
    (guards : RowGuards update row) (workItemId : String) :
    Guarded update (boardStep board (.releaseClaim workItemId)) ↔
      ClearsAbove update board (.releaseClaim workItemId) := by
  rw [guarded_iff (releaseClaim_get? stored workItemId)]
  simp only [ClearsAbove, stored, Option.some.injEq, forall_eq', hlcLe_iff]
  split_ifs with met
  · have uncompleted : row.released.completedAtNs = none := by
      simp only [Board.releasable, decide_eq_true_eq] at met
      exact met.2.2
    exact ⟨fun guarded _ => guarded rfl uncompleted, fun above _ _ => above met⟩
  · exact iff_of_true guards fun other => absurd other met

theorem reclaim_guarded_iff (stored : board.items.get? update.workItemId = some row)
    (guards : RowGuards update row) (leaseNs : Option Int) (nowNs : Int) :
    Guarded update (boardStep board (.reclaimExpiredClaims leaseNs nowNs)) ↔
      ClearsAbove update board (.reclaimExpiredClaims leaseNs nowNs) := by
  rcases reclaimExpiredClaims_stamp stored leaseNs nowNs with ⟨after, reached, stamps, completions⟩
  rw [guarded_iff reached]
  simp only [ClearsAbove, stored, Option.some.injEq, forall_eq', hlcLe_iff]
  constructor
  · intro guarded fits expired
    rcases reclaimed_of_expired stored leaseNs nowNs fits expired with ⟨cleared, found, free⟩
    rw [reached] at found
    cases found
    have uncompleted : row.completedAtNs = none := by
      simp only [Board.leaseExpired, decide_eq_true_eq] at expired
      exact expired.2.1
    rw [← stamps]
    exact guarded free (completions.trans uncompleted)
  · intro above free uncompleted
    rw [stamps]
    by_cases held : row.claimedBy = none
    · exact guards held (completions.symm.trans uncompleted)
    · -- a holder is gone only where its lease had run out
      apply above
      · by_contra wide
        have same : (boardStep board (.reclaimExpiredClaims leaseNs nowNs)).items = board.items := by
          simp only [boardStep, Board.reclaimExpiredClaims, if_neg wide]
          rfl
        rw [same, stored] at reached
        cases reached
        exact held free
      · by_contra unexpired
        exact kept_of_unexpired stored leaseNs nowNs held (Bool.eq_false_iff.mpr unexpired)
          ⟨after, reached, free⟩

theorem step_guarded_iff (board : Board) (call : BoardCall) (guarded : Guarded update board) :
    Guarded update (boardStep board call) ↔ ClearsAbove update board call := by
  rcases guarded with ⟨row, stored, guards⟩
  by_cases releases : ∃ workItemId, call = .releaseClaim workItemId
  · rcases releases with ⟨workItemId, rfl⟩
    exact release_guarded_iff stored guards workItemId
  · by_cases reclaims : ∃ leaseNs nowNs, call = .reclaimExpiredClaims leaseNs nowNs
    · rcases reclaims with ⟨leaseNs, nowNs, rfl⟩
      exact reclaim_guarded_iff stored guards leaseNs nowNs
    · push Not at releases reclaims
      have free : ClearsAbove update board call := by
        cases call with
        | releaseClaim workItemId => exact absurd rfl (releases workItemId)
        | reclaimExpiredClaims leaseNs nowNs => exact absurd rfl (reclaims leaseNs nowNs)
        | _ => trivial
      rcases kept_or_busy stored call releases reclaims with ⟨after, reached, cases⟩
      refine iff_of_true ⟨after, reached, ?_⟩ free
      rcases cases with rfl | claimed | completed
      · exact guards
      · exact fun unclaimed => absurd unclaimed claimed
      · exact fun _ uncompleted => absurd uncompleted completed

theorem applied_get? {board : Board} {update : ClaimUpdate} {row : WorkItem}
    (applied : Merges board update.workItemId update.hlcL update.hlcC update.hlcNode row) :
    (boardStep board update.call).items.get? update.workItemId = some (row.writeClaim update) := by
  have keyed : row.id = update.workItemId := ((Table.get?_eq_some _ _ _).mp applied.stored).2
  have rewrites := mergeClaim_merges board _ update.agentPubkey _ _ _ row applied
  rw [ClaimUpdate.call, rewrites.after_get?, if_pos keyed]
  rfl

/-- After its first delivery a claim stays released in every state of a run exactly when
every call that clears the item leaves a stamp that holds the claim off. -/
theorem released_claim_stays_iff (board : Board) (update : ClaimUpdate) (row : WorkItem)
    (applied : Merges board update.workItemId update.hlcL update.hlcC update.hlcNode row)
    (calls : List BoardCall) :
    (∀ front back, calls = front ++ back →
      StaysReleased update (run boardStep (boardStep board update.call) front)) ↔
      Run.Admissible boardStep (ClearsAbove update) (boardStep board update.call) calls := by
  have written := applied_get? applied
  have start : Guarded update (boardStep board update.call) :=
    ⟨_, written, fun free => absurd free (Option.some_ne_none _)⟩
  rw [← Run.invariant_iff_admissible boardStep (ClearsAbove update) (Guarded update)
    step_guarded_iff _ calls start]
  have along : ∀ front, StaysReleased update (run boardStep (boardStep board update.call) front) ↔
      Guarded update (run boardStep (boardStep board update.call) front) := by
    intro front
    have present := Run.kept_run boardStep
      (fun state : Board => ∃ row, state.items.get? update.workItemId = some row)
      (fun _ call stored => row_kept call stored) (boardStep board update.call) front ⟨_, written⟩
    rcases present with ⟨found, reached⟩
    exact (staysReleased_iff applied.fits reached).trans (guarded_iff reached).symm
  simp only [along]

/-- A claim that a gossip delta brought. -/
def gossipedOnce : ClaimUpdate := claimOnSample "agent" 5 0 "node"

theorem gossipedOnce_applied :
    Merges sampleBoard gossipedOnce.workItemId gossipedOnce.hlcL gossipedOnce.hlcC
      gossipedOnce.hlcNode sampleItem :=
  ⟨sampleBoard_get?, rfl, by decide, (by decide : gossipedOnce.Binds)⟩

/-- A reclaim clears the claim and keeps its stamp. -/
theorem released_claim_stays_sample :
    (∀ front back, [BoardCall.reclaimExpiredClaims (some 1) 5000002] = front ++ back →
      StaysReleased gossipedOnce
        (run boardStep (boardStep sampleBoard gossipedOnce.call) front)) ∧
    ((run boardStep (boardStep sampleBoard gossipedOnce.call)
      [.reclaimExpiredClaims (some 1) 5000002]).items.get? "item-1").map WorkItem.claimedBy =
        some none := by
  refine ⟨?_, by decide +kernel⟩
  apply (released_claim_stays_iff sampleBoard gossipedOnce sampleItem gossipedOnce_applied _).mpr
  refine ⟨?_, trivial⟩
  intro _ row stored _
  rw [applied_get? gossipedOnce_applied] at stored
  cases stored
  exact (hlcLe_iff _ _).mpr le_rfl

/-- After a release the same delta takes the item for its agent again. -/
theorem released_claim_returns :
    Merges sampleBoard gossipedOnce.workItemId gossipedOnce.hlcL gossipedOnce.hlcC
        gossipedOnce.hlcNode sampleItem ∧
      ¬ ∀ front back, [BoardCall.releaseClaim "item-1"] = front ++ back →
        StaysReleased gossipedOnce
          (run boardStep (boardStep sampleBoard gossipedOnce.call) front) := by
  refine ⟨gossipedOnce_applied, ?_⟩
  intro stays
  have released := stays [.releaseClaim "item-1"] [] rfl
  have holders : ((run boardStep (boardStep sampleBoard gossipedOnce.call)
        [.releaseClaim "item-1"]).items.get? "item-1").map WorkItem.claimedBy = some none ∧
      ((run boardStep (boardStep sampleBoard gossipedOnce.call)
        [.releaseClaim "item-1", gossipedOnce.call]).items.get? "item-1").map WorkItem.claimedBy =
          some (some "agent") := by
    decide +kernel
  rcases Option.map_eq_some_iff.mp holders.1 with ⟨row, stored, free⟩
  rcases Option.map_eq_some_iff.mp holders.2 with ⟨after, reached, taken⟩
  have still := released row stored free gossipedOnce rfl ((hlcLe_iff _ _).mpr le_rfl) after reached
  rw [taken] at still
  cases still

end Gyza

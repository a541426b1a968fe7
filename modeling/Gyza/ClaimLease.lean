import Gyza.ClaimMerge

/-! How long a claim can be held: leases, the clock of a board, and claim stamps. -/

namespace Gyza

open Run (run Admissible)

/-- A board and what its clock (`time.time_ns`) last read. -/
structure TimedBoard where
  board : Board
  clock : Int

/-- The time that passes before a call, and the call. -/
structure TimedCall where
  elapsed : Nat
  call : BoardCall

def timedStep (state : TimedBoard) (input : TimedCall) : TimedBoard :=
  ⟨boardStep state.board input.call, state.clock + input.elapsed⟩

/-- An uncompleted row under a claim. -/
def OpenClaim (board : Board) (id : String) (claim : Claim) : Prop :=
  ∃ row, board.items.get? id = some row ∧ row.completedAtNs = none ∧ row.claimedBy ≠ none ∧
    row.claim = claim

/-- After `reclaim_expired_claims` the item has no holder. -/
def Reclaimed (board : Board) (id : String) (leaseNs : Option Int) (nowNs : Int) : Prop :=
  ∃ row, (boardStep board (.reclaimExpiredClaims leaseNs nowNs)).items.get? id = some row ∧
    row.claimedBy = none

/-- A claim carried since the clock read `t` is cleared by any reclaim at more than
`t + lease`, while clocks fit 64 bits. -/
def LeasesBind (start : TimedBoard) (inputs : List TimedCall) : Prop :=
  ∀ front middle rest, inputs = front ++ middle ++ rest → ∀ id claim,
    (∀ earlier later, middle = earlier ++ later →
      OpenClaim (run timedStep start (front ++ earlier)).board id claim) →
    ∀ leaseNs nowNs, 0 ≤ leaseNs.getD Board.claimLeaseNs →
      (run timedStep start front).clock + leaseNs.getD Board.claimLeaseNs < nowNs → nowNs < 2 ^ 63 →
        Reclaimed (run timedStep start (front ++ middle)).board id leaseNs nowNs

/-- A claim, when it is written to an uncompleted row, is not stamped later than the clock. -/
def StampedByNow (state : TimedBoard) (input : TimedCall) : Prop :=
  match input.call with
  | .postWorkItem item => Inserts state.board item → item.claimedBy ≠ none →
      item.completedAtNs = none → ∃ ns, item.claimedAtNs = some ns ∧ ns ≤ state.clock + input.elapsed
  | .tryClaim workItemId _ hlcL hlcC _ claimantTier =>
      ∀ row, Takes state.board workItemId hlcL hlcC claimantTier row → row.completedAtNs = none →
        hlcL * 1000000 ≤ state.clock + input.elapsed
  | .mergeClaim workItemId _ hlcL hlcC hlcNode =>
      ∀ row, Merges state.board workItemId hlcL hlcC hlcNode row →
        hlcL * 1000000 ≤ state.clock + input.elapsed
  | _ => True

/-! What reclaiming does. -/

/-- Rows keep their value or lose their holder. -/
def Frees (before after : Board) : Prop :=
  ∀ id row, after.items.get? id = some row → before.items.get? id = some row ∨ row.claimedBy = none

theorem releaseClaim_frees (board : Board) (workItemId : String) :
    Frees board (boardStep board (.releaseClaim workItemId)) := by
  intro id row stored
  simp only [boardStep, Board.releaseClaim, Table.get?_update] at stored
  rcases Option.map_eq_some_iff.mp stored with ⟨old, found, changed⟩
  split_ifs at changed
  · right
    rw [← changed]
    rfl
  · left
    rw [found, changed]

theorem reclaimOne_get? (board : Board) (ids : List String) (selected : WorkItem) (id : String) :
    (Board.reclaimOne (ids, board) selected).2.items.get? id =
      (board.items.get? id).map (fun row =>
        if row.id = selected.id ∧ row.claimedBy = selected.claimedBy ∧ row.completedAtNs = none then
          row.reclaimed else row) := by
  simp only [Board.reclaimOne, Table.get?_update, decide_eq_true_eq]

theorem reclaimOne_frees (board : Board) (ids : List String) (selected : WorkItem) :
    Frees board (Board.reclaimOne (ids, board) selected).2 := by
  intro id row stored
  rw [reclaimOne_get?] at stored
  rcases Option.map_eq_some_iff.mp stored with ⟨old, found, changed⟩
  split_ifs at changed
  · right
    rw [← changed]
    rfl
  · left
    rw [found, changed]

theorem reclaimLoop_frees (selected : List WorkItem) (ids : List String) (board : Board) :
    Frees board (selected.foldl Board.reclaimOne (ids, board)).2 := by
  have loop : Table.Reworked (fun row changed : WorkItem => changed.id = row.id ∧
      (changed = row ∨ changed.claimedBy = none)) board.items
      (selected.foldl Board.reclaimOne (ids, board)).2.items := by
    apply reworked_reclaimLoop
    · exact fun _ => ⟨rfl, Or.inl rfl⟩
    · rintro _ _ third one ⟨named, rfl | free⟩
      · exact one
      · exact ⟨named.trans one.1, Or.inr free⟩
    · exact fun _ => ⟨rfl, Or.inr rfl⟩
  rcases loop.get? (fun _ _ same => same.1) with ⟨change, changed, found⟩
  intro id row stored
  rw [found] at stored
  rcases Option.map_eq_some_iff.mp stored with ⟨old, held, rfl⟩
  rcases (changed old).2 with same | free
  · exact Or.inl (held.trans (congrArg some same.symm))
  · exact Or.inr free

theorem reclaimExpiredClaims_frees (board : Board) (leaseNs : Option Int) (nowNs : Int) :
    Frees board (boardStep board (.reclaimExpiredClaims leaseNs nowNs)) := by
  simp only [boardStep, Board.reclaimExpiredClaims]
  split_ifs
  · exact reclaimLoop_frees _ _ _
  · intro id row stored
    exact Or.inl stored

/-- A row without a holder keeps none through the loop. -/
theorem reclaimLoop_keeps_free (selected : List WorkItem) (ids : List String) (board : Board)
    (id : String) (row : WorkItem) (stored : board.items.get? id = some row)
    (free : row.claimedBy = none) :
    ∃ after, (selected.foldl Board.reclaimOne (ids, board)).2.items.get? id = some after ∧
      after.claimedBy = none := by
  have loop : Table.Reworked (fun row changed : WorkItem => changed.id = row.id ∧
      (row.claimedBy = none → changed.claimedBy = none)) board.items
      (selected.foldl Board.reclaimOne (ids, board)).2.items := by
    apply reworked_reclaimLoop
    · exact fun _ => ⟨rfl, fun unheld => unheld⟩
    · exact fun _ _ _ one two => ⟨two.1.trans one.1, fun unheld => two.2 (one.2 unheld)⟩
    · exact fun _ => ⟨rfl, fun _ => rfl⟩
  rcases loop.get? (fun _ _ same => same.1) with ⟨change, changed, found⟩
  exact ⟨change row, by rw [found, stored, Option.map_some], (changed row).2 free⟩

/-- A selected row loses its holder; no other selected row has its id. -/
theorem reclaimLoop_clears (selected : List WorkItem) (ids : List String) (board : Board)
    (row : WorkItem) (listed : row ∈ selected) (only : ∀ other ∈ selected, other.id = row.id → other = row)
    (uncompleted : row.completedAtNs = none) (stored : board.items.get? row.id = some row) :
    ∃ after, (selected.foldl Board.reclaimOne (ids, board)).2.items.get? row.id = some after ∧
      after.claimedBy = none := by
  induction selected generalizing ids board with
  | nil => cases listed
  | cons item rest ih =>
      have next := reclaimOne_get? board ids item row.id
      rw [stored, Option.map_some] at next
      rw [List.foldl_cons]
      by_cases target : item.id = row.id
      · rw [only item List.mem_cons_self target, if_pos ⟨rfl, rfl, uncompleted⟩] at next
        rw [only item List.mem_cons_self target]
        exact reclaimLoop_keeps_free rest _ _ row.id _ next rfl
      · rw [if_neg (fun met => target met.1.symm)] at next
        apply ih
        · rcases List.mem_cons.mp listed with same | later
          · exact absurd (congrArg WorkItem.id same.symm) target
          · exact later
        · intro other member
          exact only other (List.mem_cons_of_mem _ member)
        · exact next

/-- An expired claim is cleared. -/
theorem reclaimed_of_expired {board : Board} {id : String} {row : WorkItem}
    (stored : board.items.get? id = some row) (leaseNs : Option Int) (nowNs : Int)
    (fits : FitsInt64 (nowNs - leaseNs.getD Board.claimLeaseNs))
    (expired : Board.leaseExpired (nowNs - leaseNs.getD Board.claimLeaseNs) row = true) :
    Reclaimed board id leaseNs nowNs := by
  rcases (Table.get?_eq_some _ _ _).mp stored with ⟨member, keyed⟩
  have uncompleted : row.completedAtNs = none := by
    simp only [Board.leaseExpired, decide_eq_true_eq] at expired
    exact expired.2.1
  subst keyed
  simp only [Reclaimed, boardStep, Board.reclaimExpiredClaims, if_pos fits, Except.toOption,
    Option.map_some, Option.getD_some]
  apply reclaimLoop_clears _ _ _ row _ _ uncompleted stored
  · exact List.mem_filter.mpr ⟨member, expired⟩
  · intro other chosen same
    have otherStored := (Table.mem_rows board.items other).mp (List.mem_filter.mp chosen).1
    rw [same, stored] at otherStored
    exact (Option.some.inj otherStored).symm

theorem reclaimLoop_other (selected : List WorkItem) (ids : List String) (board : Board)
    (id : String) (others : ∀ item ∈ selected, item.id ≠ id) :
    (selected.foldl Board.reclaimOne (ids, board)).2.items.get? id = board.items.get? id := by
  induction selected generalizing ids board with
  | nil => rfl
  | cons item rest ih =>
      have next : (Board.reclaimOne (ids, board) item).2.items.get? id = board.items.get? id := by
        rw [reclaimOne_get?]
        apply map_eq_self
        intro row stored
        have keyed : row.id = id := ((Table.get?_eq_some _ _ _).mp stored).2
        rw [if_neg]
        intro met
        exact others item List.mem_cons_self (met.1.symm.trans keyed)
      rw [List.foldl_cons, ← next]
      exact ih _ _ (fun other member => others other (List.mem_cons_of_mem _ member))

/-- A claim that has not expired is kept. -/
theorem kept_of_unexpired {board : Board} {id : String} {row : WorkItem}
    (stored : board.items.get? id = some row) (leaseNs : Option Int) (nowNs : Int)
    (held : row.claimedBy ≠ none)
    (unexpired : Board.leaseExpired (nowNs - leaseNs.getD Board.claimLeaseNs) row = false) :
    ¬Reclaimed board id leaseNs nowNs := by
  have unchanged : (boardStep board (.reclaimExpiredClaims leaseNs nowNs)).items.get? id =
      board.items.get? id := by
    simp only [boardStep, Board.reclaimExpiredClaims]
    split_ifs
    · apply reclaimLoop_other
      intro item chosen same
      rcases List.mem_filter.mp chosen with ⟨member, expired⟩
      have found := (Table.mem_rows board.items item).mp member
      rw [same, stored] at found
      rw [← Option.some.inj found, unexpired] at expired
      cases expired
    · rfl
  rintro ⟨after, found, free⟩
  rw [unchanged, stored] at found
  exact held (Option.some.inj found ▸ free)

/-! What a call writes. -/

/-- The call puts the claim of this row on the board. -/
inductive Writes (board : Board) : BoardCall → WorkItem → Prop
  | posted {item : WorkItem} (inserts : Inserts board item) : Writes board (.postWorkItem item) item
  | claimed {workItemId agentPubkey hlcNode : String} {hlcL hlcC : Int} {claimantTier : Option Int}
      {row : WorkItem} (takes : Takes board workItemId hlcL hlcC claimantTier row) :
      Writes board (.tryClaim workItemId agentPubkey hlcL hlcC hlcNode claimantTier)
        (row.withClaim agentPubkey hlcL hlcC hlcNode)
  | merged {workItemId agentPubkey hlcNode : String} {hlcL hlcC : Int} {row : WorkItem}
      (merges : Merges board workItemId hlcL hlcC hlcNode row) :
      Writes board (.mergeClaim workItemId agentPubkey hlcL hlcC hlcNode)
        (row.withClaim agentPubkey hlcL hlcC hlcNode)

theorem rewrites_cases {before after : Board} {old changed : WorkItem}
    (rewrites : Table.Rewrites before.items after.items old changed) {id : String} {row : WorkItem}
    (stored : after.items.get? id = some row) :
    before.items.get? id = some row ∨ row = changed := by
  rw [rewrites.after_get?] at stored
  split_ifs at stored
  · exact Or.inr (Option.some.inj stored).symm
  · exact Or.inl stored

/-- A row after a call was there before, or has no holder, or is completed, or carries the
claim that the call wrote. -/
theorem stored_cases (board : Board) (call : BoardCall) (id : String) (row : WorkItem)
    (stored : (boardStep board call).items.get? id = some row) :
    board.items.get? id = some row ∨ row.claimedBy = none ∨ row.completedAtNs ≠ none ∨
      Writes board call row := by
  cases call with
  | postIntent intentId goalSpecJson createdAtNs =>
      rw [postIntent_items] at stored
      exact Or.inl stored
  | postWorkItem item =>
      by_cases inserts : Inserts board item
      · rw [postWorkItem_inserts board item inserts] at stored
        split_ifs at stored
        · cases stored
          exact Or.inr (Or.inr (Or.inr (.posted inserts)))
        · exact Or.inl stored
      · rw [postWorkItem_ignores board item inserts] at stored
        exact Or.inl stored
  | tryClaim workItemId agentPubkey hlcL hlcC hlcNode claimantTier =>
      rcases tryClaim_items board workItemId agentPubkey hlcL hlcC hlcNode claimantTier with
        same | ⟨old, takes, rewrites⟩
      · exact Or.inl (same ▸ stored)
      · rcases rewrites_cases rewrites stored with kept | rfl
        · exact Or.inl kept
        · exact Or.inr (Or.inr (Or.inr (.claimed takes)))
  | mergeClaim workItemId agentPubkey hlcL hlcC hlcNode =>
      rcases mergeClaim_items board workItemId agentPubkey hlcL hlcC hlcNode with
        same | ⟨old, merges, rewrites⟩
      · exact Or.inl (same ▸ stored)
      · rcases rewrites_cases rewrites stored with kept | rfl
        · exact Or.inl kept
        · exact Or.inr (Or.inr (Or.inr (.merged merges)))
  | mergeCompletion workItemId outputHash icpEnvelopeHash success completedAtNs =>
      rcases mergeCompletion_items board workItemId
        outputHash icpEnvelopeHash success completedAtNs with ⟨same, _⟩ | ⟨old, _, _, _, rewrites⟩
      · exact Or.inl (same ▸ stored)
      · rcases rewrites_cases rewrites stored with kept | rfl
        · exact Or.inl kept
        · exact Or.inr (Or.inr (Or.inl (Option.some_ne_none _)))
  | completeWorkItem workItemId outputHash icpEnvelopeHash success completedAtNs expectedOwner =>
      rw [completeWorkItem_get?] at stored
      rcases Option.map_eq_some_iff.mp stored with ⟨old, found, changed⟩
      split_ifs at changed
      · subst changed
        exact Or.inr (Or.inr (Or.inl (Option.some_ne_none _)))
      · subst changed
        exact Or.inl found
  | releaseClaim workItemId =>
      rcases releaseClaim_frees board workItemId id row stored with kept | free
      · exact Or.inl kept
      · exact Or.inr (Or.inl free)
  | reclaimExpiredClaims leaseNs nowNs =>
      rcases reclaimExpiredClaims_frees board leaseNs nowNs id row stored with kept | free
      · exact Or.inl kept
      · exact Or.inr (Or.inl free)

/-! The invariant: a claim on an uncompleted row is not stamped later than the clock. -/

def RowPast (now : Int) (row : WorkItem) : Prop :=
  row.claimedBy ≠ none → row.completedAtNs = none → ∃ ns, row.claimedAtNs = some ns ∧ ns ≤ now

def RowsPast (state : TimedBoard) : Prop :=
  ∀ id row, state.board.items.get? id = some row → RowPast state.clock row

theorem rowsPast_step (state : TimedBoard) (input : TimedCall) (past : RowsPast state)
    (stamped : StampedByNow state input) : RowsPast (timedStep state input) := by
  rcases input with ⟨elapsed, call⟩
  intro id row stored held uncompleted
  rcases stored_cases state.board call id row stored with kept | free | completed | written
  · rcases past id row kept held uncompleted with ⟨ns, claimed, before⟩
    exact ⟨ns, claimed, before.trans (by simp [timedStep])⟩
  · exact absurd free held
  · exact absurd uncompleted completed
  · cases written with
    | posted inserts => exact stamped inserts held uncompleted
    | claimed takes => exact ⟨_, rfl, stamped _ takes uncompleted⟩
    | merged merges => exact ⟨_, rfl, stamped _ merges⟩

theorem clock_run (start : TimedBoard) (inputs : List TimedCall) :
    start.clock ≤ (run timedStep start inputs).clock := by
  induction inputs generalizing start with
  | nil => exact le_rfl
  | cons input rest ih =>
      have next : start.clock ≤ (timedStep start input).clock := by simp [timedStep]
      exact next.trans (ih (timedStep start input))

/-- A board with no claims, when its clock read `clock`. -/
def freshBoard (clock : Int) : TimedBoard := ⟨Board.empty, clock⟩

theorem rowsPast_fresh (clock : Int) : RowsPast (freshBoard clock) := by
  intro id row stored
  cases stored

theorem leasesBind_of_stamped {clock : Int} (nonnegative : 0 ≤ clock) {inputs : List TimedCall}
    (stamped : Admissible timedStep StampedByNow (freshBoard clock) inputs) :
    LeasesBind (freshBoard clock) inputs := by
  intro front middle rest split id claim carried leaseNs nowNs lease expired bound
  rw [split, List.append_assoc, Run.admissible_append] at stamped
  have past : RowsPast (run timedStep (freshBoard clock) front) :=
    Run.invariant_run timedStep StampedByNow RowsPast rowsPast_step (freshBoard clock) front
      (rowsPast_fresh clock) stamped.1
  have reached := clock_run (freshBoard clock) front
  simp only [freshBoard] at reached
  rcases carried [] middle rfl with ⟨first, firstStored, firstOpen, firstHeld, firstClaim⟩
  rcases carried middle [] (List.append_nil _).symm with ⟨last, lastStored, lastOpen, lastHeld, lastClaim⟩
  rw [List.append_nil] at firstStored
  rcases past id first firstStored firstHeld firstOpen with ⟨ns, claimed, before⟩
  have same : last.claimedAtNs = some ns := by
    have equal : last.claimedAtNs = first.claimedAtNs :=
      congrArg Claim.claimedAtNs (lastClaim.trans firstClaim.symm)
    exact equal.trans claimed
  apply reclaimed_of_expired lastStored
  · constructor <;> simp only [freshBoard] at expired ⊢ <;> omega
  · simp only [Board.leaseExpired, decide_eq_true_eq]
    refine ⟨lastHeld, lastOpen, ?_⟩
    simp only [same, Option.any_some, decide_eq_true_eq]
    omega

/-- Where leases bind, an open claim is never stamped later than the clock. -/
theorem past_of_leasesBind {clock : Int} {inputs : List TimedCall}
    (binds : LeasesBind (freshBoard clock) inputs)
    (bound : (run timedStep (freshBoard clock) inputs).clock < 2 ^ 63 - 1)
    (front rest : List TimedCall) (split : inputs = front ++ rest) :
    RowsPast (run timedStep (freshBoard clock) front) := by
  intro id row stored held uncompleted
  have reached : (run timedStep (freshBoard clock) front).clock ≤
      (run timedStep (freshBoard clock) inputs).clock := by
    rw [split, Run.run_append]
    exact clock_run _ rest
  have cleared := binds front [] rest (by rw [split, List.append_nil]) id row.claim
    (by
      intro earlier later empty
      have none : earlier = [] := (List.append_eq_nil_iff.mp empty.symm).1
      rw [none, List.append_nil]
      exact ⟨row, stored, uncompleted, held, rfl⟩)
    (some 0) ((run timedStep (freshBoard clock) front).clock + 1) le_rfl (by simp) (by omega)
  rw [List.append_nil] at cleared
  by_contra late
  apply kept_of_unexpired stored (some 0) _ held _ cleared
  simp only [Board.leaseExpired, decide_eq_false_iff_not]
  rintro ⟨_, _, older⟩
  cases claimed : row.claimedAtNs with
  | none =>
      rw [claimed] at older
      cases older
  | some ns =>
      rw [claimed, Option.any_some, decide_eq_true_eq, Option.getD_some] at older
      exact late ⟨ns, claimed, by omega⟩

/-- A claim written with a later stamp breaks the invariant at once. -/
theorem stamped_of_rowsPast {state : TimedBoard} {input : TimedCall}
    (past : RowsPast (timedStep state input)) : StampedByNow state input := by
  rcases input with ⟨elapsed, call⟩
  cases call with
  | postWorkItem item =>
      intro inserts held uncompleted
      apply past item.id item _ held uncompleted
      change (boardStep state.board (.postWorkItem item)).items.get? item.id = some item
      rw [postWorkItem_inserts state.board item inserts, if_pos rfl]
  | tryClaim workItemId agentPubkey hlcL hlcC hlcNode claimantTier =>
      intro row takes uncompleted
      have rewrites := tryClaim_takes state.board _ agentPubkey _ _ hlcNode _ row takes
      have written := (rewrites.after_get? row.id).trans (if_pos rfl)
      rcases past row.id _ written (Option.some_ne_none _) uncompleted with ⟨ns, claimed, before⟩
      rw [← Option.some.inj claimed] at before
      exact before
  | mergeClaim workItemId agentPubkey hlcL hlcC hlcNode =>
      intro row merges
      have rewrites := mergeClaim_merges state.board _ agentPubkey _ _ _ row merges
      have written := (rewrites.after_get? row.id).trans (if_pos rfl)
      rcases past row.id _ written (Option.some_ne_none _) merges.uncompleted with
        ⟨ns, claimed, before⟩
      rw [← Option.some.inj claimed] at before
      exact before
  | _ => trivial

/-- Every claim is cleared once its lease has run out exactly in the runs where no claim is
written to an uncompleted row with a stamp later than the clock. -/
theorem leases_bind_iff (clock : Int) (nonnegative : 0 ≤ clock) (inputs : List TimedCall)
    (bound : (run timedStep (freshBoard clock) inputs).clock < 2 ^ 63 - 1) :
    LeasesBind (freshBoard clock) inputs ↔
      Admissible timedStep StampedByNow (freshBoard clock) inputs := by
  constructor
  · intro binds
    apply Run.admissible_of_steps
    intro front input rest split
    apply stamped_of_rowsPast
    have past := past_of_leasesBind binds bound (front ++ [input]) rest (by rw [split]; simp)
    rw [Run.run_append, Run.run_cons, Run.run_nil] at past
    exact past
  · exact leasesBind_of_stamped nonnegative

/-- A gossiped claim on the sample item, stamped `hlcL` milliseconds. -/
def gossipedClaim (hlcL : Int) : List TimedCall :=
  [⟨0, .postIntent "intent-1" "goal" 1⟩, ⟨0, .postWorkItem sampleItem⟩,
    ⟨0, .mergeClaim "item-1" "agent" hlcL 0 "node"⟩]

theorem leases_bind_sample : LeasesBind (freshBoard 10000000) (gossipedClaim 5) := by
  apply (leases_bind_iff 10000000 (by decide) (gossipedClaim 5) (by decide)).mpr
  refine ⟨trivial, ?_, ?_, trivial⟩
  · intro _ held
    exact absurd rfl held
  · intro row _
    decide

/-- A claim stamped far in the future outlives its lease. -/
theorem parked_claim : ¬LeasesBind (freshBoard 10000000) (gossipedClaim 9000000000000) := by
  intro binds
  have past := past_of_leasesBind binds (by decide) (gossipedClaim 9000000000000) []
    (List.append_nil _).symm
  have claim : ((run timedStep (freshBoard 10000000) (gossipedClaim 9000000000000)).board.items.get?
      "item-1").map (fun row => (row.claimedBy, row.completedAtNs, row.claimedAtNs)) =
        some (some "agent", none, some 9000000000000000000) := by decide +kernel
  rcases Option.map_eq_some_iff.mp claim with ⟨row, stored, columns⟩
  simp only [Prod.mk.injEq] at columns
  rcases past "item-1" row stored (by simp [columns.1]) columns.2.1 with ⟨ns, claimed, before⟩
  rw [columns.2.2] at claimed
  rw [← Option.some.inj claimed] at before
  exact absurd before (by decide)

end Gyza

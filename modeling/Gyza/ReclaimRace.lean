import Gyza.ClaimLease

/-! Reclaiming expired claims while others write the board.

`reclaim_expired_claims` selects the expired rows in one statement and clears them in
later ones, each guarded by the holder it was selected under. Every statement, and
every other call, is one step; several reclaims may be under way. -/

namespace Gyza

open Run (run Admissible)

/-- A `reclaim_expired_claims` under way: the rows it has still to clear. -/
structure Reclaiming where
  cutoff : Int
  pending : List WorkItem
  reclaimed : List String := []

structure SharedBoard where
  board : Board
  reclaims : List Reclaiming := []

inductive SharedAct where
  | call (call : BoardCall)
  | select (leaseNs : Option Int) (nowNs : Int)
  | clear (which : Nat)

def sharedStep (state : SharedBoard) : SharedAct → SharedBoard
  | .call call => { state with board := boardStep state.board call }
  | .select leaseNs nowNs =>
      let cutoff := nowNs - leaseNs.getD Board.claimLeaseNs
      if FitsInt64 cutoff then
        { state with
          reclaims := state.reclaims ++
            [{ cutoff := cutoff
               pending := state.board.items.rows.filter (Board.leaseExpired cutoff) }] }
      else state
  | .clear which =>
      match state.reclaims[which]? with
      | some ⟨cutoff, selected :: pending, reclaimed⟩ =>
          let next := Board.reclaimOne (reclaimed, state.board) selected
          ⟨next.2, state.reclaims.set which ⟨cutoff, pending, next.1⟩⟩
      | _ => state

/-- The cutoff of the reclaim that the step clears for, if it is one. -/
def cutoffOf (state : SharedBoard) : SharedAct → Option Int
  | .call (.reclaimExpiredClaims leaseNs nowNs) => some (nowNs - leaseNs.getD Board.claimLeaseNs)
  | .call _ => none
  | .select _ _ => none
  | .clear which => (state.reclaims[which]?).map Reclaiming.cutoff

/-- A claim that the step clears for a reclaim is from before the cutoff. -/
def ClearsExpired (state : SharedBoard) (act : SharedAct) : Prop :=
  ∀ cutoff, cutoffOf state act = some cutoff → ∀ id before after,
    state.board.items.get? id = some before → before.claimedBy ≠ none →
    (sharedStep state act).board.items.get? id = some after → after.claimedBy = none →
      ∃ ns, before.claimedAtNs = some ns ∧ ns < cutoff

/-- No call puts a claim from after a cutoff on a row that the reclaim has still to clear,
under the holder it was selected under. -/
def NotRenewed (state : SharedBoard) : SharedAct → Prop
  | .call call =>
      ∀ row, Writes state.board call row → row.completedAtNs = none →
        ∀ reclaim ∈ state.reclaims, ∀ selected ∈ reclaim.pending, selected.id = row.id →
          selected.claimedBy = row.claimedBy → ∃ ns, row.claimedAtNs = some ns ∧ ns < reclaim.cutoff
  | _ => True

/-! Without anything in between, the statements make up the call. -/

theorem clear_all (front : List Reclaiming) (cutoff : Int) (pending : List WorkItem)
    (reclaimed : List String) (board : Board) :
    run sharedStep ⟨board, front ++ [⟨cutoff, pending, reclaimed⟩]⟩
        (List.replicate pending.length (.clear front.length)) =
      ⟨(pending.foldl Board.reclaimOne (reclaimed, board)).2,
        front ++ [⟨cutoff, [], (pending.foldl Board.reclaimOne (reclaimed, board)).1⟩]⟩ := by
  induction pending generalizing reclaimed board with
  | nil => rfl
  | cons selected rest ih =>
      rw [List.length_cons, List.replicate_succ, Run.run_cons]
      have step : sharedStep ⟨board, front ++ [⟨cutoff, selected :: rest, reclaimed⟩]⟩
          (.clear front.length) =
            ⟨(Board.reclaimOne (reclaimed, board) selected).2,
              front ++ [⟨cutoff, rest, (Board.reclaimOne (reclaimed, board) selected).1⟩]⟩ := by
        simp [sharedStep]
      rw [step, ih, List.foldl_cons]

/-- A reclaim that nothing comes between leaves the board of the atomic call. -/
theorem uninterrupted_reclaim (state : SharedBoard) (leaseNs : Option Int) (nowNs : Int)
    (fits : FitsInt64 (nowNs - leaseNs.getD Board.claimLeaseNs)) :
    (run sharedStep state (.select leaseNs nowNs :: List.replicate
        (state.board.items.rows.filter
          (Board.leaseExpired (nowNs - leaseNs.getD Board.claimLeaseNs))).length
        (.clear state.reclaims.length))).board =
      boardStep state.board (.reclaimExpiredClaims leaseNs nowNs) := by
  rw [Run.run_cons]
  simp only [sharedStep, if_pos fits]
  rw [clear_all]
  simp only [boardStep, Board.reclaimExpiredClaims, if_pos fits, Except.toOption, Option.map_some,
    Option.getD_some]

/-! The invariant: a row still to be cleared that has its holder is expired. -/

def PendingExpired (state : SharedBoard) : Prop :=
  ∀ reclaim ∈ state.reclaims, ∀ selected ∈ reclaim.pending, selected.claimedBy ≠ none ∧
    ∀ row, state.board.items.get? selected.id = some row → row.claimedBy = selected.claimedBy →
      row.completedAtNs = none → ∃ ns, row.claimedAtNs = some ns ∧ ns < reclaim.cutoff

theorem leaseExpired_iff {cutoff : Int} {row : WorkItem} :
    Board.leaseExpired cutoff row = true ↔ row.claimedBy ≠ none ∧ row.completedAtNs = none ∧
      ∃ ns, row.claimedAtNs = some ns ∧ ns < cutoff := by
  simp only [Board.leaseExpired, decide_eq_true_eq]
  cases row.claimedAtNs with
  | none => simp
  | some ns => simp

/-- Steps that only free rows, or write expired claims, keep what is pending expired. -/
theorem pendingExpired_board {state : SharedBoard} {after : Board} (expired : PendingExpired state)
    (change : ∀ id row, after.items.get? id = some row → row.completedAtNs = none →
      state.board.items.get? id = some row ∨ row.claimedBy = none ∨
        ∀ reclaim ∈ state.reclaims, ∀ selected ∈ reclaim.pending, selected.id = id →
          row.claimedBy = selected.claimedBy → ∃ ns, row.claimedAtNs = some ns ∧ ns < reclaim.cutoff) :
    PendingExpired { state with board := after } := by
  intro reclaim listed selected waiting
  rcases expired reclaim listed selected waiting with ⟨held, old⟩
  refine ⟨held, ?_⟩
  intro row stored same uncompleted
  rcases change selected.id row stored uncompleted with kept | free | written
  · exact old row kept same uncompleted
  · exact absurd (same.symm.trans free) held
  · exact written reclaim listed selected waiting rfl same

theorem pendingExpired_call {state : SharedBoard} (call : BoardCall) (expired : PendingExpired state)
    (renewed : NotRenewed state (.call call)) :
    PendingExpired (sharedStep state (.call call)) := by
  apply pendingExpired_board expired
  intro id row stored uncompleted
  rcases stored_cases state.board call id row stored with kept | free | completed | written
  · exact Or.inl kept
  · exact Or.inr (Or.inl free)
  · exact absurd uncompleted completed
  · have keyed : row.id = id := ((Table.get?_eq_some _ _ _).mp stored).2
    refine Or.inr (Or.inr ?_)
    intro reclaim listed selected waiting same holder
    exact renewed row written uncompleted reclaim listed selected waiting (same.trans keyed.symm)
      holder.symm

theorem pendingExpired_select {state : SharedBoard} (leaseNs : Option Int) (nowNs : Int)
    (expired : PendingExpired state) : PendingExpired (sharedStep state (.select leaseNs nowNs)) := by
  simp only [sharedStep]
  split_ifs
  · intro reclaim listed selected waiting
    rcases List.mem_append.mp listed with old | new
    · exact expired reclaim old selected waiting
    · rw [List.mem_singleton.mp new] at waiting ⊢
      rcases List.mem_filter.mp waiting with ⟨member, chosen⟩
      rcases leaseExpired_iff.mp chosen with ⟨held, _, ns, claimed, before⟩
      refine ⟨held, ?_⟩
      intro row stored _ _
      have found := (Table.mem_rows state.board.items selected).mp member
      rw [stored] at found
      rw [Option.some.inj found]
      exact ⟨ns, claimed, before⟩
  · exact expired

theorem pendingExpired_clear {state : SharedBoard} (which : Nat) (expired : PendingExpired state) :
    PendingExpired (sharedStep state (.clear which)) := by
  simp only [sharedStep]
  split
  · rename_i cutoff selected pending reclaimed found
    have current := List.mem_of_getElem? found
    have freed : PendingExpired { state with
        board := (Board.reclaimOne (reclaimed, state.board) selected).2 } := by
      apply pendingExpired_board expired
      intro id row stored _
      rcases reclaimOne_frees state.board reclaimed selected id row stored with kept | free
      · exact Or.inl kept
      · exact Or.inr (Or.inl free)
    intro reclaim listed waiting member
    rcases List.mem_or_eq_of_mem_set listed with old | new
    · exact freed reclaim old waiting member
    · rw [new] at member ⊢
      exact freed _ current waiting (List.mem_cons_of_mem _ member)
  · exact expired

theorem pendingExpired_step (state : SharedBoard) (act : SharedAct) (expired : PendingExpired state)
    (renewed : NotRenewed state act) : PendingExpired (sharedStep state act) := by
  cases act with
  | call call => exact pendingExpired_call call expired renewed
  | select leaseNs nowNs => exact pendingExpired_select leaseNs nowNs expired
  | clear which => exact pendingExpired_clear which expired

/-- From the invariant: what a step clears has expired. -/
theorem clearsExpired_of_pending (state : SharedBoard) (act : SharedAct)
    (expired : PendingExpired state) : ClearsExpired state act := by
  intro cutoff clearing id before after stored held cleared free
  cases act with
  | select leaseNs nowNs => cases clearing
  | call call =>
      cases call with
      | reclaimExpiredClaims leaseNs nowNs =>
          cases clearing
          by_contra late
          have kept : Board.leaseExpired (nowNs - leaseNs.getD Board.claimLeaseNs) before = false := by
            rw [Bool.eq_false_iff]
            exact fun chosen => late (leaseExpired_iff.mp chosen).2.2
          exact kept_of_unexpired stored leaseNs nowNs held kept ⟨after, cleared, free⟩
      | _ => cases clearing
  | clear which =>
      simp only [cutoffOf, Option.map_eq_some_iff] at clearing
      rcases clearing with ⟨⟨limit, pending, reclaimed⟩, found, rfl⟩
      cases pending with
      | nil =>
          simp only [sharedStep, found] at cleared
          rw [stored] at cleared
          exact absurd (Option.some.inj cleared ▸ free) held
      | cons selected rest =>
          simp only [sharedStep, found] at cleared
          rw [reclaimOne_get?, stored, Option.map_some] at cleared
          split_ifs at cleared with met
          · have keyed : before.id = id := ((Table.get?_eq_some _ _ _).mp stored).2
            rcases expired _ (List.mem_of_getElem? found) selected List.mem_cons_self with ⟨_, old⟩
            apply old before _ met.2.1 met.2.2
            rw [← met.1, keyed]
            exact stored
          · exact absurd (Option.some.inj cleared ▸ free) held

/-- In every run in which no pending claim is renewed, reclaiming clears only claims from
before its cutoff. -/
theorem reclaim_clears_expired (board : Board) (acts : List SharedAct)
    (renewed : Admissible sharedStep NotRenewed { board := board } acts)
    (front : List SharedAct) (act : SharedAct) (rest : List SharedAct)
    (split : acts = front ++ act :: rest) :
    ClearsExpired (run sharedStep { board := board } front) act := by
  rw [split, Run.admissible_append] at renewed
  apply clearsExpired_of_pending
  apply Run.invariant_run sharedStep NotRenewed PendingExpired pendingExpired_step _ front _ renewed.1
  intro reclaim none
  cases none

/-- The sample item, claimed at 5 ms and selected by a reclaim with its cutoff at 10 ms. -/
def selectedSample : List SharedAct :=
  [.call (.tryClaim "item-1" "agent" 5 0 "node" none), .select (some 0) 10000000]

theorem reclaim_clears_expired_sample :
    ClearsExpired (run sharedStep { board := sampleBoard } selectedSample) (.clear 0) ∧
      ((run sharedStep { board := sampleBoard } (selectedSample ++ [.clear 0])).board.items.get?
        "item-1").map WorkItem.claimedBy = some none := by
  refine ⟨?_, by decide +kernel⟩
  apply reclaim_clears_expired sampleBoard (selectedSample ++ [.clear 0]) _ selectedSample _ [] rfl
  refine ⟨?_, trivial, trivial, trivial⟩
  intro row _ _ reclaim none
  cases none

/-- Before the row is cleared, its holder releases it and claims it again at 20 ms. -/
def renewedSample : List SharedAct :=
  selectedSample ++ [.call (.releaseClaim "item-1"),
    .call (.tryClaim "item-1" "agent" 20 0 "node" none)]

/-- The renewed claim is cleared, ten milliseconds after the cutoff. -/
theorem renewed_claim_cleared :
    ¬ClearsExpired (run sharedStep { board := sampleBoard } renewedSample) (.clear 0) := by
  intro clears
  have before : ((run sharedStep { board := sampleBoard } renewedSample).board.items.get?
      "item-1").map (fun row => (row.claimedBy, row.claimedAtNs)) =
        some (some "agent", some 20000000) := by decide +kernel
  have after : ((sharedStep (run sharedStep { board := sampleBoard } renewedSample)
      (.clear 0)).board.items.get? "item-1").map WorkItem.claimedBy = some none := by decide +kernel
  have cutoff : cutoffOf (run sharedStep { board := sampleBoard } renewedSample) (.clear 0) =
      some 10000000 := by decide +kernel
  rcases Option.map_eq_some_iff.mp before with ⟨row, stored, columns⟩
  rcases Option.map_eq_some_iff.mp after with ⟨cleared, found, free⟩
  simp only [Prod.mk.injEq] at columns
  rcases clears 10000000 cutoff "item-1" row cleared stored
    (by simp [columns.1]) found free with ⟨ns, claimed, early⟩
  rw [columns.2] at claimed
  rw [← Option.some.inj claimed] at early
  exact absurd early (by decide)

end Gyza

import Gyza.BoardRuns
import Gyza.Gossip
import Gyza.Lib.Register

/-! Gossiped claims as a last-writer-wins register, one for each uncompleted row. -/

namespace Gyza

open Run (run)

/-- The order of Python's tuples `(l, c, node)`. -/
def stampKey (stamp : Int × Int × String) : Int ×ₗ Int ×ₗ String :=
  toLex (stamp.1, toLex (stamp.2.1, stamp.2.2))

theorem hlcLe_iff (first second : Int × Int × String) :
    Board.hlcLe first second ↔ stampKey first ≤ stampKey second := by
  simp only [Board.hlcLe, stampKey, Prod.Lex.toLex_le_toLex]

theorem stampKey_injective {first second : Int × Int × String}
    (same : stampKey first = stampKey second) : first = second := by
  simp only [stampKey, EmbeddingLike.apply_eq_iff_eq, Prod.mk.injEq] at same
  exact Prod.ext same.1 (Prod.ext same.2.1 same.2.2)

/-- `(claimed_by, claimed_at_ns, claim_hlc_l, claim_hlc_c, claim_hlc_node)`. -/
structure Claim where
  claimedBy : Option String
  claimedAtNs : Option Int
  stamp : Int × Int × String
  deriving DecidableEq

def WorkItem.stamp (item : WorkItem) : Int × Int × String :=
  (item.claimHlcL, item.claimHlcC, item.claimHlcNode)

def WorkItem.claim (item : WorkItem) : Claim := ⟨item.claimedBy, item.claimedAtNs, item.stamp⟩

namespace ClaimUpdate

def stamp (update : ClaimUpdate) : Int × Int × String := (update.hlcL, update.hlcC, update.hlcNode)

/-- The claim columns a merge of the update writes. -/
def claim (update : ClaimUpdate) : Claim :=
  ⟨some update.agentPubkey, some (update.hlcL * 1000000), update.stamp⟩

/-- The integers the merge stores fit their columns. -/
def Binds (update : ClaimUpdate) : Prop :=
  FitsInt64 (update.hlcL * 1000000) ∧ FitsInt64 update.hlcL ∧ FitsInt64 update.hlcC

instance (update : ClaimUpdate) : Decidable update.Binds := inferInstanceAs (Decidable (_ ∧ _))

def call (update : ClaimUpdate) : BoardCall :=
  .mergeClaim update.workItemId update.agentPubkey update.hlcL update.hlcC update.hlcNode

end ClaimUpdate

def WorkItem.writeClaim (item : WorkItem) (update : ClaimUpdate) : WorkItem :=
  item.withClaim update.agentPubkey update.hlcL update.hlcC update.hlcNode

/-- A row as a register of claims. -/
def claimRegister : Register.Spec WorkItem ClaimUpdate (Int ×ₗ Int ×ₗ String) where
  stampOf item := stampKey item.stamp
  stamp update := stampKey update.stamp
  write := WorkItem.writeClaim
  stampOf_write _ _ := rfl
  write_write _ _ _ := rfl

/-- What `merge_claim_direct` does to the row it is about. -/
def WorkItem.mergeClaim (item : WorkItem) (update : ClaimUpdate) : WorkItem :=
  if item.completedAtNs = none then Register.merge claimRegister ClaimUpdate.Binds item update
  else item

theorem map_eq_self {α : Type} {value : Option α} {change : α → α}
    (unchanged : ∀ row, value = some row → change row = row) : value.map change = value := by
  cases value with
  | none => rfl
  | some row => rw [Option.map_some, unchanged row rfl]

theorem mergeClaim_get? (board : Board) (update : ClaimUpdate) (id : String) :
    (boardStep board update.call).items.get? id =
      (board.items.get? id).map (fun row =>
        if update.workItemId = id then row.mergeClaim update else row) := by
  by_cases taken : ∃ row, Merges board update.workItemId update.hlcL update.hlcC update.hlcNode row
  · rcases taken with ⟨row, merges⟩
    have keyed : row.id = update.workItemId := ((Table.get?_eq_some _ _ _).mp merges.stored).2
    have rewrites := mergeClaim_merges board _ update.agentPubkey _ _ _ row merges
    have written : row.mergeClaim update = row.writeClaim update := by
      rw [WorkItem.mergeClaim, if_pos merges.uncompleted]
      apply Register.merge_takes claimRegister ClaimUpdate.Binds merges.fits
      exact not_le.mp (fun older => merges.newer ((hlcLe_iff _ _).mpr older))
    rw [ClaimUpdate.call, rewrites.after_get?, keyed]
    split_ifs with target
    · rw [← target, merges.stored, Option.map_some, written]
      rfl
    · exact (map_eq_self (fun _ _ => rfl)).symm
  · rw [ClaimUpdate.call, mergeClaim_ignored board _ update.agentPubkey _ _ _
      (fun row merges => taken ⟨row, merges⟩)]
    symm
    apply map_eq_self
    intro row stored
    split_ifs with target
    · rw [WorkItem.mergeClaim]
      split_ifs with uncompleted
      · apply Register.merge_skips
        by_contra neither
        rw [not_or, not_not] at neither
        exact taken ⟨row, target ▸ stored, uncompleted,
          fun older => neither.2 ((hlcLe_iff _ _).mp older), neither.1⟩
      · rfl
    · rfl

theorem WorkItem.mergeClaim_completion (item : WorkItem) (update : ClaimUpdate) :
    (item.mergeClaim update).completion = item.completion := by
  unfold mergeClaim Register.merge
  split_ifs <;> rfl

theorem WorkItem.mergeClaim_of_uncompleted {item : WorkItem} (uncompleted : item.completedAtNs = none)
    (updates : List ClaimUpdate) :
    updates.foldl WorkItem.mergeClaim item =
      updates.foldl (Register.merge claimRegister ClaimUpdate.Binds) item := by
  induction updates generalizing item with
  | nil => rfl
  | cons update rest ih =>
      have step : item.mergeClaim update = Register.merge claimRegister ClaimUpdate.Binds item update :=
        if_pos uncompleted
      have still : (item.mergeClaim update).completedAtNs = none := by
        have same := congrArg Completion.completedAtNs (item.mergeClaim_completion update)
        exact same.trans uncompleted
      rw [List.foldl_cons, List.foldl_cons, ih still, step]

/-- Claims on one row, merged one after the other. -/
def deliverClaims (board : Board) (updates : List ClaimUpdate) : Board :=
  updates.foldl (fun current update => boardStep current update.call) board

theorem deliverClaims_get? (updates : List ClaimUpdate) (id : String)
    (about : ∀ update ∈ updates, update.workItemId = id) (board : Board) :
    (deliverClaims board updates).items.get? id =
      (board.items.get? id).map (fun row => updates.foldl WorkItem.mergeClaim row) := by
  induction updates generalizing board with
  | nil => exact (map_eq_self (fun _ _ => rfl)).symm
  | cons update rest ih =>
      have target := about update List.mem_cons_self
      rw [deliverClaims, List.foldl_cons]
      change (deliverClaims _ rest).items.get? id = _
      rw [ih (fun other member => about other (List.mem_cons_of_mem _ member)), mergeClaim_get?,
        Option.map_map]
      simp only [target, if_true, List.foldl_cons, Function.comp_def]

/-- Whatever the order and number of deliveries, the row ends with the claim of `top`. -/
def ClaimsConverge (board : Board) (workItemId : String) (updates : List ClaimUpdate)
    (top : ClaimUpdate) : Prop :=
  ∀ delivered : List ClaimUpdate, (∀ update, update ∈ delivered ↔ update ∈ updates) →
    ((deliverClaims board delivered).items.get? workItemId).map WorkItem.claim = some top.claim

/-- Updates about one uncompleted row whose claim columns are still the initial ones. -/
structure ClaimGossip (board : Board) (workItemId : String) (updates : List ClaimUpdate)
    (top : ClaimUpdate) : Prop where
  present : ∃ row, board.items.get? workItemId = some row ∧ row.completedAtNs = none ∧
    row.stamp = (0, 0, "")
  about : ∀ update ∈ updates, update.workItemId = workItemId
  functional : ∀ first ∈ updates, ∀ second ∈ updates, first.stamp = second.stamp →
    first.agentPubkey = second.agentPubkey
  listed : top ∈ updates
  greatest : ∀ update ∈ updates, Board.hlcLe update.stamp top.stamp
  exceeds : ¬Board.hlcLe top.stamp (0, 0, "")

theorem ClaimUpdate.binds_of_stamp {first second : ClaimUpdate} (same : first.stamp = second.stamp)
    (binds : first.Binds) : second.Binds := by
  simp only [ClaimUpdate.stamp, Prod.mk.injEq] at same
  simp only [ClaimUpdate.Binds] at binds ⊢
  rw [← same.1, ← same.2.1]
  exact binds

theorem writeClaim_congr {first second : ClaimUpdate} (same : first.stamp = second.stamp)
    (agent : first.agentPubkey = second.agentPubkey) (item : WorkItem) :
    item.writeClaim first = item.writeClaim second := by
  simp only [ClaimUpdate.stamp, Prod.mk.injEq] at same
  rw [WorkItem.writeClaim, WorkItem.writeClaim, agent, same.1, same.2.1, same.2.2]

/-- The row an uncompleted row becomes under any claims: the greatest one that binds, if it exceeds
the row's stamp. -/
theorem delivered_row {board : Board} {row : WorkItem} {id : String}
    (stored : board.items.get? id = some row) (uncompleted : row.completedAtNs = none)
    (updates : List ClaimUpdate) (about : ∀ update ∈ updates, update.workItemId = id) :
    (deliverClaims board updates).items.get? id =
      some (updates.foldl (Register.merge claimRegister ClaimUpdate.Binds) row) := by
  rw [deliverClaims_get? updates id about board, stored, Option.map_some,
    WorkItem.mergeClaim_of_uncompleted uncompleted]

/-- The sample item on an otherwise empty board. -/
def sampleBoard : Board := run boardStep Board.empty
  [.postIntent "intent-1" "goal" 1, .postWorkItem sampleItem]

/-- A claim on the sample item. -/
def claimOnSample (agentPubkey : String) (hlcL hlcC : Int) (hlcNode : String) : ClaimUpdate :=
  ⟨"item-1", agentPubkey, hlcNode, hlcL, hlcC, hlcNode⟩

theorem sampleBoard_get? : sampleBoard.items.get? "item-1" = some sampleItem := by
  have inserts : Inserts (boardStep Board.empty (.postIntent "intent-1" "goal" 1)) sampleItem :=
    ⟨by decide +kernel, by decide +kernel, by decide +kernel⟩
  rw [sampleBoard, Run.run_cons, Run.run_cons, Run.run_nil, postWorkItem_inserts _ _ inserts]
  rfl

theorem claimGossip_sample (top : ClaimUpdate) (about : top.workItemId = "item-1")
    (exceeds : ¬Board.hlcLe top.stamp (0, 0, "")) :
    ClaimGossip sampleBoard "item-1" [top] top := by
  constructor
  · exact ⟨sampleItem, sampleBoard_get?, rfl, rfl⟩
  · intro update member
    rw [List.mem_singleton.mp member, about]
  · intro first firstMember second secondMember _
    rw [List.mem_singleton.mp firstMember, List.mem_singleton.mp secondMember]
  · exact List.mem_singleton_self top
  · intro update member
    rw [List.mem_singleton.mp member, hlcLe_iff]
  · exact exceeds

end Gyza

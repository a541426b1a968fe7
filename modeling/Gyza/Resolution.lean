import Gyza.MarketRuns
import Gyza.Lib.KeyedSort

/-! The resolution layer of the market (`gyza/economy/resolution.py`): rounds that settle
against signed verdicts, and the choice of the tasks to resolve.

The resolver is a parameter with a state of its own, and may raise, stay silent or answer
with any verdict. -/

namespace Gyza.Market

open Hex (utf8)
open BondedMarket

/-! Verdicts. -/

structure Verdict where
  taskId : String
  truth : String
  resolverPubkey : String
  method : String
  signature : String := ""
  deriving DecidableEq

section Verdicts

variable (crypto : Crypto)

def verdictDigest (v : Verdict) : Hex.Bytes :=
  crypto.blake3 (utf8 (CanonJson.dumps (.obj
    [("method", .str v.method), ("resolver_pubkey", .str v.resolverPubkey),
      ("task_id", .str v.taskId), ("truth", .str v.truth)])))

def signVerdict {crypto : Crypto} (identity : LocalCompositor crypto)
    (taskId truth method : String) : Verdict :=
  let v : Verdict := ⟨taskId, truth, identity.pubkeyHex, method, ""⟩
  { v with signature := identity.sign (verdictDigest crypto v) }

def verifyVerdict (v : Verdict) : Bool :=
  if v.signature = "" then false
  else
    match Hex.fromhex v.resolverPubkey, Hex.fromhex v.signature with
    | some pubkey, some sig =>
        pubkey.length = 32 && crypto.ed25519Verify pubkey (verdictDigest crypto v) sig
    | _, _ => false

end Verdicts

/-! Resolvers. -/

inductive Reply where
  | raised
  | unknown
  | verdict (v : Verdict)

structure Resolver (ρ : Type) where
  resolve : ρ → String → Finset String → Reply × ρ

/-- `OracleResolver.resolve`; `checker` is `none` where it raises. -/
def oracleResolver {ρ : Type} {crypto : Crypto} (identity : LocalCompositor crypto)
    (checker : ρ → String → Option (Option String) × ρ) (method : String) : Resolver ρ where
  resolve state taskId _ :=
    let (checked, next) := checker state taskId
    match checked with
    | none => (.raised, next)
    | some none => (.unknown, next)
    | some (some truth) => (.verdict (signVerdict identity taskId truth method), next)

/-! Rounds. -/

structure ResolutionOutcome where
  verdicts : List Verdict
  settled : List String
  refunded : List String

/-- A verdict the market was settled against, with the assertions it was applied to. -/
structure Ruling where
  verdict : Verdict
  bonded : List Assertion

/-- The market and the resolver as a round works on them. `rulings` is a history that no
call reads. -/
structure Court (ρ : Type) where
  market : BondedMarket
  resolver : ρ
  rulings : List Ruling

section Rounds

variable {ρ : Type} (crypto : Crypto) (verify : Assertion → Bool) (resolver : Resolver ρ)

namespace Court

def settleWith (court : Court ρ) (taskId : String) (v : Verdict) : Court ρ :=
  { court with
    market := (court.market.resolve verify taskId v.truth).1
    rulings := court.rulings ++ [⟨v, court.market.assertionsOn taskId⟩] }

def refund (court : Court ρ) (taskId : String) : Court ρ :=
  { court with market := court.market.cancel taskId }

def ask (court : Court ρ) (taskId : String) : Reply × Court ρ :=
  let answer := resolver.resolve court.resolver taskId
    ((court.market.assertionsOn taskId).map Assertion.claim).toFinset
  (answer.1, { court with resolver := answer.2 })

/-- `resolve_round`; the outcome is `none` where the resolver raised, after the tasks before
were settled or refunded. -/
def resolveRound (court : Court ρ) (outcome : ResolutionOutcome) :
    List String → Court ρ × Option ResolutionOutcome
  | [] => (court, some outcome)
  | taskId :: rest =>
      let asked := court.ask resolver taskId
      match asked.1 with
      | .raised => (asked.2, none)
      | .unknown =>
          resolveRound (asked.2.refund taskId)
            { outcome with refunded := outcome.refunded ++ [taskId] } rest
      | .verdict v =>
          if verifyVerdict crypto v ∧ v.taskId = taskId then
            resolveRound (asked.2.settleWith verify taskId v)
              { outcome with
                verdicts := outcome.verdicts ++ [v]
                settled := outcome.settled ++ [taskId] } rest
          else
            resolveRound (asked.2.refund taskId)
              { outcome with refunded := outcome.refunded ++ [taskId] } rest

end Court

inductive CourtCall where
  | submit (a : Assertion)
  | cancel (taskId : String)
  | resolveRound (taskIds : List String)

def Court.opening (initialCapital : Dict String ℚ) (state : ρ) : Court ρ :=
  ⟨start initialCapital, state, []⟩

def Court.step (court : Court ρ) : CourtCall → Court ρ
  | .submit a => { court with market := (court.market.submit verify a).1 }
  | .cancel taskId => court.refund taskId
  | .resolveRound taskIds => (court.resolveRound crypto verify resolver ⟨[], [], []⟩ taskIds).1

end Rounds

/-! An agent's worth: its capital and what it holds in escrow. -/

namespace BondedMarket

def heldFor (market : BondedMarket) (pubkey : String) : ℚ :=
  (market.escrow.values.map fun bonds => (bonds.lookup pubkey).getD 0).sum

def worthOf (market : BondedMarket) (pubkey : String) : ℚ :=
  market.capitalOf pubkey + market.heldFor pubkey

end BondedMarket

/-- What a ruling is to give an agent on top of its own stakes: nothing where no claim
was right. -/
def award (pubkey : String) (ruling : Ruling) : ℚ :=
  if winnersOf ruling.bonded ruling.verdict.truth = [] then 0
  else ((ruling.bonded.filter fun a => a.agentPubkey = pubkey).map
    (profit ruling.bonded ruling.verdict.truth)).sum

theorem capitalOf_creditAll (market : BondedMarket) (amounts : List (String × ℚ))
    (delta : String × ℚ → ℚ) (reason : Reason) (taskId : Option String) (pubkey : String) :
    (market.creditAll amounts delta reason taskId).capitalOf pubkey =
      market.capitalOf pubkey + ((amounts.filter fun row => row.1 = pubkey).map delta).sum := by
  induction amounts generalizing market with
  | nil => simp [creditAll]
  | cons row rest ih =>
      calc
        _ = ((market.credit row.1 (delta row) reason taskId).creditAll rest delta reason
              taskId).capitalOf pubkey := rfl
        _ = market.capitalOf pubkey + (if row.1 = pubkey then delta row else 0) +
              ((rest.filter fun row => row.1 = pubkey).map delta).sum := by
          rw [ih, capitalOf_credit]
        _ = _ := by
          by_cases own : row.1 = pubkey
          · simp [own, add_assoc]
          · simp [own]

theorem heldFor_close (market : BondedMarket) (taskId pubkey : String) :
    (market.close taskId).heldFor pubkey =
      market.heldFor pubkey - ((market.escrowOf taskId).lookup pubkey).getD 0 := by
  have popped := Dict.sum_values_pop market.escrow
    (fun bonds : Dict String ℚ => (bonds.lookup pubkey).getD 0) taskId
  unfold escrowOf
  cases held : market.escrow.lookup taskId with
  | none =>
      rw [held] at popped
      exact popped
  | some bonds =>
      rw [held] at popped
      exact popped

section Worth

variable {verify : Assertion → Bool} {total : ℚ} {market : BondedMarket}

/-- The stake of an agent on a task is the sum of its assertions there. -/
theorem Sound.lookup_escrowOf (sound : Sound verify total market) (taskId pubkey : String) :
    ((market.escrowOf taskId).lookup pubkey).getD 0 =
      (((market.assertionsOn taskId).filter fun a => a.agentPubkey = pubkey).map
        Assertion.stake).sum := by
  have rows := Table.filter_key_eq (market.escrowOf taskId) pubkey
  rw [sound.escrow_rows taskId, List.filter_map] at rows
  have stakes := congrArg (fun rows => (rows.map Prod.snd).sum) rows
  simp only [List.map_map] at stakes
  unfold Dict.lookup
  refine Eq.trans ?_ stakes.symm
  cases (market.escrowOf taskId).get? pubkey <;> simp

/-- Closing a task moves an agent's worth by what is paid on top of its stakes there. -/
theorem Sound.worthOf_payOut (sound : Sound verify total market) (taskId pubkey : String)
    (delta : String × ℚ → ℚ) (reason : Reason) :
    ((market.close taskId).creditAll (market.escrowOf taskId).rows delta reason
      (some taskId)).worthOf pubkey =
      market.worthOf pubkey + (((market.assertionsOn taskId).filter
        fun a => a.agentPubkey = pubkey).map fun a => delta (bond a) - a.stake).sum := by
  obtain ⟨_, escrow⟩ := creditAll_frame (market.close taskId) (market.escrowOf taskId).rows delta
    reason (some taskId)
  have held : ((market.close taskId).creditAll (market.escrowOf taskId).rows delta reason
      (some taskId)).heldFor pubkey = (market.close taskId).heldFor pubkey := by
    rw [heldFor, escrow, ← heldFor]
  have paid : (((market.escrowOf taskId).rows.filter fun row => row.1 = pubkey).map delta).sum =
      (((market.assertionsOn taskId).filter fun a => a.agentPubkey = pubkey).map
        fun a => delta (bond a)).sum := by
    rw [sound.escrow_rows taskId, List.filter_map, List.map_map]
    rfl
  have parts : (((market.assertionsOn taskId).filter fun a => a.agentPubkey = pubkey).map
      fun a => delta (bond a)).sum =
      (((market.assertionsOn taskId).filter fun a => a.agentPubkey = pubkey).map
        fun a => delta (bond a) - a.stake).sum +
      (((market.assertionsOn taskId).filter fun a => a.agentPubkey = pubkey).map
        Assertion.stake).sum := by
    rw [← List.sum_map_add]
    simp
  calc
    _ = market.capitalOf pubkey + (((market.assertionsOn taskId).filter
          fun a => a.agentPubkey = pubkey).map fun a => delta (bond a)).sum +
        (market.heldFor pubkey - (((market.assertionsOn taskId).filter
          fun a => a.agentPubkey = pubkey).map Assertion.stake).sum) := by
      rw [worthOf, held, heldFor_close, sound.lookup_escrowOf, capitalOf_creditAll, paid]
      rfl
    _ = _ := by
      rw [parts, worthOf]
      ring

theorem Sound.worthOf_cancel (sound : Sound verify total market) (taskId pubkey : String) :
    (market.cancel taskId).worthOf pubkey = market.worthOf pubkey := by
  rw [BondedMarket.cancel, sound.worthOf_payOut]
  simp [bond]

theorem Sound.worthOf_resolve (sound : Sound verify total market) (taskId pubkey : String)
    (v : Verdict) :
    (market.resolve verify taskId v.truth).1.worthOf pubkey =
      market.worthOf pubkey + award pubkey ⟨v, market.assertionsOn taskId⟩ := by
  have verified := sound.verified taskId
  by_cases won : winnersOf (market.assertionsOn taskId) v.truth = []
  · simp only [BondedMarket.resolve, settle_refunds verified won, if_true]
    rw [sound.worthOf_payOut]
    simp [bond, award, won]
  · obtain ⟨settled, profits⟩ := settle_profit verified (sound.agents_distinct taskId) won
    simp only [BondedMarket.resolve, settled, Bool.false_eq_true, if_false]
    rw [sound.worthOf_payOut, award, if_neg won]
    congr 2
    apply List.map_congr_left
    intro a member
    rw [bond, profits a (List.mem_of_mem_filter member), add_sub_cancel_left]

theorem worthOf_submit (market : BondedMarket) (a : Assertion) (pubkey : String) :
    (market.submit verify a).1.worthOf pubkey = market.worthOf pubkey := by
  unfold BondedMarket.submit
  split_ifs with refused bonded poor
  · rfl
  · rfl
  · rfl
  · have charged := capitalOf_credit market a.agentPubkey (-a.stake) .stake (some a.taskId) pubkey
    have before : ((market.escrow.lookup a.taskId).map fun bonds : Dict String ℚ =>
        (bonds.lookup pubkey).getD 0).getD 0 =
          ((market.escrowOf a.taskId).lookup pubkey).getD 0 := by
      unfold escrowOf
      cases market.escrow.lookup a.taskId <;> rfl
    have after : (((market.escrowOf a.taskId).add a.agentPubkey a.stake).lookup pubkey).getD 0 =
        ((market.escrowOf a.taskId).lookup pubkey).getD 0 +
          if a.agentPubkey = pubkey then a.stake else 0 := by
      rw [Dict.add, Dict.lookup_set]
      by_cases own : a.agentPubkey = pubkey
      · simp [own]
      · simp [own]
    calc
      _ = (market.credit a.agentPubkey (-a.stake) .stake (some a.taskId)).capitalOf pubkey +
            (market.heldFor pubkey - ((market.escrowOf a.taskId).lookup pubkey).getD 0 +
              (((market.escrowOf a.taskId).add a.agentPubkey a.stake).lookup pubkey).getD 0) := by
        rw [heldFor, ← before, ← Dict.sum_values_set]
        rfl
      _ = market.worthOf pubkey := by
        rw [charged, after, worthOf]
        by_cases own : a.agentPubkey = pubkey
        · simp [own]
          ring
        · simp [own]

end Worth

/-! Runs of submissions, cancellations and rounds. -/

/-- What holds of a court at any time: `before` is the worth of each agent at the start. -/
structure Accounted (crypto : Crypto) (verify : Assertion → Bool) (total : ℚ)
    (before : String → ℚ) {ρ : Type} (court : Court ρ) : Prop where
  sound : Sound verify total court.market
  ruled : ∀ ruling ∈ court.rulings, verifyVerdict crypto ruling.verdict = true ∧
    ∀ a ∈ ruling.bonded, verify a = true ∧ a.taskId = ruling.verdict.taskId
  placed : ∀ taskId, ∀ a ∈ court.market.assertionsOn taskId, a.taskId = taskId
  worth : ∀ pubkey, court.market.worthOf pubkey =
    before pubkey + (court.rulings.map (award pubkey)).sum

theorem assertionsOn_payOut (market : BondedMarket) (taskId : String) (amounts : List (String × ℚ))
    (delta : String × ℚ → ℚ) (reason : Reason) (other : String) :
    ((market.close taskId).creditAll amounts delta reason (some taskId)).assertionsOn other =
      if taskId = other then [] else market.assertionsOn other := by
  obtain ⟨opened, _⟩ := creditAll_frame (market.close taskId) amounts delta reason (some taskId)
  rw [assertionsOn, opened, close, Dict.lookup_pop]
  split_ifs <;> rfl

theorem assertionsOn_cancel (market : BondedMarket) (taskId other : String) :
    (market.cancel taskId).assertionsOn other =
      if taskId = other then [] else market.assertionsOn other :=
  assertionsOn_payOut _ _ _ _ _ _

theorem assertionsOn_resolve (verify : Assertion → Bool) (market : BondedMarket)
    (taskId truth other : String) :
    (market.resolve verify taskId truth).1.assertionsOn other =
      if taskId = other then [] else market.assertionsOn other := by
  unfold BondedMarket.resolve
  simp only
  split_ifs with refunded same same
  · rw [assertionsOn_payOut, if_pos same]
  · rw [assertionsOn_payOut, if_neg same]
  · rw [assertionsOn_payOut, if_pos same]
  · rw [assertionsOn_payOut, if_neg same]

namespace Accounted

variable {crypto : Crypto} {verify : Assertion → Bool} {total : ℚ} {before : String → ℚ}
  {ρ : Type} {court : Court ρ} {resolver : Resolver ρ}

theorem opening {initialCapital : Dict String ℚ}
    (funded : ∀ amount ∈ initialCapital.values, 0 ≤ amount) (state : ρ) :
    Accounted crypto verify initialCapital.values.sum (start initialCapital).worthOf
      (Court.opening initialCapital state) := by
  constructor
  · exact Sound.start funded
  · intro ruling member
    cases member
  · intro taskId a member
    obtain ⟨opened, _⟩ := creditAll_frame empty initialCapital.rows Prod.snd .seed none
    rw [Court.opening, start, assertionsOn, opened] at member
    cases member
  · intro pubkey
    simp [Court.opening]

theorem submit (accounted : Accounted crypto verify total before court) (a : Assertion) :
    Accounted crypto verify total before
      { court with market := (court.market.submit verify a).1 } := by
  constructor
  · exact accounted.sound.submit a
  · exact accounted.ruled
  · intro taskId b member
    simp only [BondedMarket.submit] at member
    split_ifs at member
    · exact accounted.placed taskId b member
    · exact accounted.placed taskId b member
    · exact accounted.placed taskId b member
    · simp only [assertionsOn, Dict.lookup_set] at member
      split_ifs at member with same
      · rw [Option.getD_some] at member
        rcases List.mem_append.mp member with earlier | added
        · exact same ▸ accounted.placed a.taskId b earlier
        · rw [List.mem_singleton.mp added, same]
      · exact accounted.placed taskId b member
  · intro pubkey
    rw [worthOf_submit]
    exact accounted.worth pubkey

variable (staked : ∀ a, verify a = true → 0 < a.stake)

include staked

theorem refund (accounted : Accounted crypto verify total before court) (taskId : String) :
    Accounted crypto verify total before (court.refund taskId) := by
  constructor
  · exact accounted.sound.cancel staked taskId
  · exact accounted.ruled
  · intro other a member
    rw [Court.refund, assertionsOn_cancel] at member
    split_ifs at member
    · cases member
    · exact accounted.placed other a member
  · intro pubkey
    rw [Court.refund, accounted.sound.worthOf_cancel]
    exact accounted.worth pubkey

theorem settleWith (accounted : Accounted crypto verify total before court) {v : Verdict}
    (signed : verifyVerdict crypto v = true) :
    Accounted crypto verify total before (court.settleWith verify v.taskId v) := by
  constructor
  · exact accounted.sound.resolve staked v.taskId v.truth
  · intro ruling member
    rcases List.mem_append.mp member with earlier | added
    · exact accounted.ruled ruling earlier
    · rw [List.mem_singleton.mp added]
      exact ⟨signed, fun a bonded =>
        ⟨accounted.sound.verified v.taskId a bonded, accounted.placed v.taskId a bonded⟩⟩
  · intro other a member
    rw [Court.settleWith, assertionsOn_resolve] at member
    split_ifs at member
    · cases member
    · exact accounted.placed other a member
  · intro pubkey
    rw [Court.settleWith, accounted.sound.worthOf_resolve, accounted.worth pubkey,
      List.map_append, List.sum_append, List.map_singleton, List.sum_singleton, add_assoc]

theorem resolveRound (accounted : Accounted crypto verify total before court)
    (outcome : ResolutionOutcome) (taskIds : List String) :
    Accounted crypto verify total before
      (court.resolveRound crypto verify resolver outcome taskIds).1 := by
  induction taskIds generalizing court outcome with
  | nil => exact accounted
  | cons taskId rest ih =>
      -- the resolver's own state is no part of the account
      have asked : Accounted crypto verify total before (court.ask resolver taskId).2 :=
        ⟨accounted.sound, accounted.ruled, accounted.placed, accounted.worth⟩
      rw [Court.resolveRound]
      cases reply : (court.ask resolver taskId).1 with
      | raised => exact asked
      | unknown => exact ih (asked.refund staked taskId) _
      | verdict v =>
          simp only
          split_ifs with accepted
          · obtain ⟨signed, rfl⟩ := accepted
            exact ih (asked.settleWith staked signed) _
          · exact ih (asked.refund staked taskId) _

theorem step (accounted : Accounted crypto verify total before court) (call : CourtCall) :
    Accounted crypto verify total before (court.step crypto verify resolver call) := by
  cases call with
  | submit a => exact accounted.submit a
  | cancel taskId => exact accounted.refund staked taskId
  | resolveRound taskIds => exact accounted.resolveRound staked ⟨[], [], []⟩ taskIds

end Accounted

theorem worthOf_start (initialCapital : Dict String ℚ) (pubkey : String) :
    (start initialCapital).worthOf pubkey = (initialCapital.lookup pubkey).getD 0 := by
  obtain ⟨_, escrow⟩ := creditAll_frame empty initialCapital.rows Prod.snd .seed none
  have held : (start initialCapital).heldFor pubkey = 0 := by
    rw [heldFor, start, escrow]
    rfl
  have own := Table.filter_key_eq initialCapital pubkey
  rw [worthOf, held, add_zero, start, capitalOf_creditAll, own, Dict.lookup]
  cases initialCapital.get? pubkey with
  | none => exact add_zero _
  | some row => simp [capitalOf, foldCapital, empty]

/-- An agent whose claims were all right is not charged by a ruling. -/
theorem award_nonneg {ruling : Ruling} (staked : ∀ a ∈ ruling.bonded, 0 < a.stake)
    {pubkey : String} (right : ∀ a ∈ ruling.bonded, a.agentPubkey = pubkey →
      a.claim = ruling.verdict.truth) : 0 ≤ award pubkey ruling := by
  unfold award
  split_ifs
  · exact le_rfl
  · apply List.sum_nonneg
    intro gain member
    obtain ⟨a, own, rfl⟩ := List.mem_map.mp member
    obtain ⟨bonded, own⟩ := List.mem_filter.mp own
    have stake := (staked a bonded).le
    have pot : 0 ≤ totalStake (losersOf ruling.bonded ruling.verdict.truth) :=
      totalStake_nonneg (fun b loser => staked b (List.mem_of_mem_filter loser))
    have win : 0 ≤ totalStake (winnersOf ruling.bonded ruling.verdict.truth) :=
      totalStake_nonneg (fun b winner => staked b (List.mem_of_mem_filter winner))
    rw [profit, if_pos (right a bonded (of_decide_eq_true own))]
    positivity

namespace BondedMarket

def openTaskIds (market : BondedMarket) : List String := market.opened.keys

def stakeByClaim (market : BondedMarket) (taskId : String) : Dict String ℚ :=
  (market.assertionsOn taskId).foldl (fun byClaim a =>
    byClaim.add a.claim (((market.escrowOf taskId).lookup a.agentPubkey).getD 0)) Dict.empty

def contestedStake (market : BondedMarket) (taskId : String) : ℚ :=
  if (market.escrowOf taskId).rows = [] then 0
  else
    match (market.stakeByClaim taskId).values.max? with
    | some plurality => (market.stakeByClaim taskId).values.sum - plurality
    | none => 0

/-- `items[:stop]`. -/
def sliceTo {α : Type} (items : List α) (stop : Int) : List α :=
  items.take (if 0 ≤ stop then stop.toNat else (items.length + stop).toNat)

def selectTargeted (market : BondedMarket) (budget : Int) : List String :=
  sliceTo (KeyedSort.sortBy (fun taskId => OrderDual.toDual (market.contestedStake taskId))
    market.openTaskIds) budget

end BondedMarket

section Contested

variable {verify : Assertion → Bool} {total : ℚ} {market : BondedMarket}

theorem Sound.own_stake (sound : Sound verify total market) {taskId : String} {a : Assertion}
    (member : a ∈ market.assertionsOn taskId) :
    ((market.escrowOf taskId).lookup a.agentPubkey).getD 0 = a.stake := by
  have held : (market.escrowOf taskId).lookup a.agentPubkey = some a.stake := by
    rw [Dict.lookup_eq_some, sound.escrow_rows taskId]
    exact List.mem_map.mpr ⟨a, member, rfl⟩
  rw [held, Option.getD_some]

theorem Sound.lookup_stakeByClaim (sound : Sound verify total market) (taskId claim : String) :
    ((market.stakeByClaim taskId).lookup claim).getD 0 =
      totalStake (winnersOf (market.assertionsOn taskId) claim) := by
  calc
    _ = ((winnersOf (market.assertionsOn taskId) claim).map fun a =>
          ((market.escrowOf taskId).lookup a.agentPubkey).getD 0).sum := by
        rw [stakeByClaim, Dict.lookup_foldl_add]
        exact zero_add _
    _ = _ := congrArg List.sum
        (List.map_congr_left fun a member => sound.own_stake (List.mem_of_mem_filter member))

theorem Sound.sum_stakeByClaim (sound : Sound verify total market) (taskId : String) :
    (market.stakeByClaim taskId).values.sum = totalStake (market.assertionsOn taskId) := by
  calc
    _ = 0 + ((market.assertionsOn taskId).map fun a =>
          ((market.escrowOf taskId).lookup a.agentPubkey).getD 0).sum :=
        Dict.sum_values_foldl_add _ _ _ _
    _ = _ := by
        rw [List.map_congr_left fun a member => sound.own_stake member, zero_add, totalStake]

/-- The stakes behind the claims, whichever way they are looked at. -/
theorem Sound.mem_stakeByClaim (sound : Sound verify total market) {taskId : String} {stake : ℚ}
    (member : stake ∈ (market.stakeByClaim taskId).values) :
    ∃ claim, stake = totalStake (winnersOf (market.assertionsOn taskId) claim) := by
  obtain ⟨⟨claim, held⟩, row, rfl⟩ := List.mem_map.mp member
  refine ⟨claim, ?_⟩
  rw [← sound.lookup_stakeByClaim, (Dict.lookup_eq_some _ _ _).mpr row, Option.getD_some]

theorem Sound.stakeByClaim_nonneg (staked : ∀ a, verify a = true → 0 < a.stake)
    (sound : Sound verify total market) (taskId : String) :
    ∀ stake ∈ (market.stakeByClaim taskId).values, 0 ≤ stake := by
  intro stake member
  obtain ⟨claim, rfl⟩ := sound.mem_stakeByClaim member
  exact totalStake_nonneg fun a winner =>
    staked a (sound.verified taskId a (List.mem_of_mem_filter winner))

theorem Sound.contestedStake_nonneg (staked : ∀ a, verify a = true → 0 < a.stake)
    (sound : Sound verify total market) (taskId : String) : 0 ≤ market.contestedStake taskId := by
  unfold contestedStake
  split_ifs
  · exact le_rfl
  · cases largest : (market.stakeByClaim taskId).values.max? with
    | none => exact le_rfl
    | some plurality =>
        obtain ⟨member, _⟩ := List.max?_eq_some_iff.mp largest
        have whole := List.single_le_sum (sound.stakeByClaim_nonneg staked taskId) plurality member
        exact sub_nonneg.mpr whole

theorem totalStake_split (assertions : List Assertion) (truth : String) :
    totalStake assertions =
      totalStake (winnersOf assertions truth) + totalStake (losersOf assertions truth) := by
  induction assertions with
  | nil => simp [totalStake, winnersOf, losersOf]
  | cons a rest ih =>
      by_cases right : a.claim = truth
      · simp_all [totalStake, winnersOf, losersOf, add_assoc]
      · simp_all [totalStake, winnersOf, losersOf, add_left_comm]

theorem Sound.settle_pot (sound : Sound verify total market) {taskId truth : String}
    (settled : (settle verify (market.assertionsOn taskId) truth).refunded = false) :
    winnersOf (market.assertionsOn taskId) truth ≠ [] ∧
      (settle verify (market.assertionsOn taskId) truth).pot =
        totalStake (losersOf (market.assertionsOn taskId) truth) := by
  have all : (market.assertionsOn taskId).filter verify = market.assertionsOn taskId :=
    List.filter_eq_self.mpr (sound.verified taskId)
  have won : winnersOf (market.assertionsOn taskId) truth ≠ [] := by
    intro none
    rw [settle_refunds (sound.verified taskId) none] at settled
    cases settled
  have winners : ((market.assertionsOn taskId).filter fun a => decide (a.claim = truth)) ≠ [] := won
  refine ⟨won, ?_⟩
  simp only [settle, all, if_neg winners, losersOf, ne_eq]

/-- Whatever a task is settled to, its pot is at least the stake that was contested. -/
theorem Sound.contestedStake_le_pot (staked : ∀ a, verify a = true → 0 < a.stake)
    (sound : Sound verify total market) {taskId truth : String}
    (settled : (settle verify (market.assertionsOn taskId) truth).refunded = false) :
    market.contestedStake taskId ≤ (settle verify (market.assertionsOn taskId) truth).pot := by
  obtain ⟨won, pot⟩ := sound.settle_pot settled
  have positive : 0 < totalStake (winnersOf (market.assertionsOn taskId) truth) :=
    totalStake_pos (fun a winner =>
      staked a (sound.verified taskId a (List.mem_of_mem_filter winner))) won
  have counted : totalStake (winnersOf (market.assertionsOn taskId) truth) ∈
      (market.stakeByClaim taskId).values := by
    have stake := sound.lookup_stakeByClaim taskId truth
    cases found : (market.stakeByClaim taskId).lookup truth with
    | none =>
        rw [found] at stake
        exact absurd stake positive.ne
    | some held =>
        rw [found, Option.getD_some] at stake
        exact List.mem_map.mpr ⟨(truth, held), (Dict.lookup_eq_some _ _ _).mp found, stake⟩
  unfold contestedStake
  split_ifs
  · rw [pot]
    exact totalStake_nonneg fun a loser =>
      staked a (sound.verified taskId a (List.mem_of_mem_filter loser))
  · cases largest : (market.stakeByClaim taskId).values.max? with
    | none =>
        rw [List.max?_eq_none_iff.mp largest] at counted
        cases counted
    | some plurality =>
        obtain ⟨_, above⟩ := List.max?_eq_some_iff.mp largest
        calc
          (market.stakeByClaim taskId).values.sum - plurality
            = totalStake (winnersOf (market.assertionsOn taskId) truth) +
                totalStake (losersOf (market.assertionsOn taskId) truth) - plurality := by
              rw [sound.sum_stakeByClaim, ← totalStake_split]
          _ ≤ totalStake (losersOf (market.assertionsOn taskId) truth) := by
              linarith [above _ counted]
          _ = _ := pot.symm

end Contested

theorem sliceTo_eq_take {α : Type} (items : List α) (stop : Int) :
    sliceTo items stop = items.take (sliceTo items stop).length := by
  unfold sliceTo
  rw [List.length_take, List.take_eq_take_min]

end Gyza.Market

namespace Gyza.Sample

open Market

def oracle : Resolver Nat :=
  oracleResolver (compositor 4) (fun asked _ => (some (some "yes"), asked + 1)) "oracle"

/-- Two agents bet against each other, and the oracle is asked. -/
def dispute : List CourtCall :=
  [.submit (pledge 1 "yes" 2), .submit (pledge 2 "no" 4), .resolveRound ["task-1"]]

/-- A scheme in which a key signs with itself, which is quick to check. -/
def selfSigned : Crypto where
  blake3 := id
  ed25519Verify pubkey _ sig := decide (sig = pubkey)

def wager (seed : UInt8) (claim : String) (stake : ℚ) : Assertion :=
  ⟨(compositor seed).pubkeyHex, "task-1", claim, stake, "nonce", (compositor seed).pubkeyHex⟩

/-- Two agents against a third. -/
def disagreement : List MarketCall :=
  [.submit (wager 1 "yes" 2), .submit (wager 2 "yes" 4), .submit (wager 3 "no" 3)]

def wagered : BondedMarket :=
  Run.run (BondedMarket.step (verifyAssertion selfSigned stakeText)) (BondedMarket.start purses)
    disagreement

theorem wagered_tasks :
    wagered.openTaskIds = ["task-1"] ∧ (wagered.selectTargeted 1).length = 1 := by
  decide +kernel

end Gyza.Sample

namespace Gyza.Market

end Gyza.Market

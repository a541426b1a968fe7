import Gyza.Market
import Gyza.Lib.Run

/-! Conservation of capital in the bonded market, along every sequence of calls. -/

namespace Gyza.Market

open BondedMarket

/-! The capital fold. -/

theorem foldCapital_concat (entries : List CapitalEntry) (e : CapitalEntry) (pubkey : String) :
    foldCapital (entries ++ [e]) pubkey =
      foldCapital entries pubkey + if e.agentPubkey = pubkey then e.delta else 0 := by
  simp only [foldCapital, List.filter_append, List.map_append, List.sum_append]
  by_cases own : e.agentPubkey = pubkey <;> simp [own]

theorem capitalOf_credit (market : BondedMarket) (payee : String) (delta : ℚ) (reason : Reason)
    (taskId : Option String) (pubkey : String) :
    (market.credit payee delta reason taskId).capitalOf pubkey =
      market.capitalOf pubkey + if payee = pubkey then delta else 0 :=
  foldCapital_concat _ _ _

theorem totalCapital_credit (market : BondedMarket) (payee : String) (delta : ℚ) (reason : Reason)
    (taskId : Option String) :
    (market.credit payee delta reason taskId).totalCapital = market.totalCapital + delta := by
  simp [totalCapital, credit]

theorem totalCapital_creditAll (market : BondedMarket) (amounts : List (String × ℚ))
    (delta : String × ℚ → ℚ) (reason : Reason) (taskId : Option String) :
    (market.creditAll amounts delta reason taskId).totalCapital =
      market.totalCapital + (amounts.map delta).sum := by
  induction amounts generalizing market with
  | nil => simp [creditAll]
  | cons row rest ih =>
      calc
        _ = ((market.credit row.1 (delta row) reason taskId).creditAll rest delta reason
              taskId).totalCapital := rfl
        _ = market.totalCapital + delta row + (rest.map delta).sum := by
          rw [ih, totalCapital_credit]
        _ = _ := by rw [List.map_cons, List.sum_cons, add_assoc]

theorem capitalOf_creditAll_ge (market : BondedMarket) {amounts : List (String × ℚ)}
    {delta : String × ℚ → ℚ} (gains : ∀ row ∈ amounts, 0 ≤ delta row) (reason : Reason)
    (taskId : Option String) (pubkey : String) :
    market.capitalOf pubkey ≤ (market.creditAll amounts delta reason taskId).capitalOf pubkey := by
  induction amounts generalizing market with
  | nil => exact le_rfl
  | cons row rest ih =>
      have gain := gains row List.mem_cons_self
      calc
        market.capitalOf pubkey
          ≤ (market.credit row.1 (delta row) reason taskId).capitalOf pubkey := by
            rw [capitalOf_credit]
            split_ifs <;> linarith
        _ ≤ _ := ih _ (fun other member => gains other (List.mem_cons_of_mem _ member))

/-- Credits touch the entries alone. -/
theorem creditAll_frame (market : BondedMarket) (amounts : List (String × ℚ))
    (delta : String × ℚ → ℚ) (reason : Reason) (taskId : Option String) :
    (market.creditAll amounts delta reason taskId).opened = market.opened ∧
      (market.creditAll amounts delta reason taskId).escrow = market.escrow := by
  induction amounts generalizing market with
  | nil => exact ⟨rfl, rfl⟩
  | cons row rest ih => exact ih (market.credit row.1 (delta row) reason taskId)

/-! What `settle` awards. -/

def winnersOf (assertions : List Assertion) (truth : String) : List Assertion :=
  assertions.filter (fun a => a.claim = truth)

def losersOf (assertions : List Assertion) (truth : String) : List Assertion :=
  assertions.filter (fun a => ¬a.claim = truth)

/-- The net change of an assertion's agent on the basis of its stake. -/
def profit (assertions : List Assertion) (truth : String) (a : Assertion) : ℚ :=
  if a.claim = truth then
    totalStake (losersOf assertions truth) * (a.stake / totalStake (winnersOf assertions truth))
  else -a.stake

theorem totalStake_pos {assertions : List Assertion} (staked : ∀ a ∈ assertions, 0 < a.stake)
    (some_one : assertions ≠ []) : 0 < totalStake assertions :=
  List.sum_pos _ (by simpa using staked) (by simpa using some_one)

theorem totalStake_nonneg {assertions : List Assertion} (staked : ∀ a ∈ assertions, 0 < a.stake) :
    0 ≤ totalStake assertions :=
  List.sum_nonneg (by simpa using fun a member => (staked a member).le)

/-- Winners divide exactly what losers forfeit. -/
theorem sum_profit {assertions : List Assertion} (staked : ∀ a ∈ assertions, 0 < a.stake)
    {truth : String} (won : winnersOf assertions truth ≠ []) :
    (assertions.map (profit assertions truth)).sum = 0 := by
  have positive : 0 < totalStake (winnersOf assertions truth) :=
    totalStake_pos (fun a member => staked a (List.mem_of_mem_filter member)) won
  have shares : ((winnersOf assertions truth).map fun a =>
      totalStake (losersOf assertions truth) *
        (a.stake / totalStake (winnersOf assertions truth))).sum =
      totalStake (losersOf assertions truth) := by
    rw [List.sum_map_mul_left]
    simp only [div_eq_mul_inv]
    rw [List.sum_map_mul_right, ← totalStake, mul_inv_cancel₀ positive.ne', mul_one]
  have forfeits : ((losersOf assertions truth).map fun a => -a.stake).sum =
      -totalStake (losersOf assertions truth) := by
    rw [totalStake, List.sum_neg, List.map_map]
    rfl
  calc
    (assertions.map (profit assertions truth)).sum
      = ((winnersOf assertions truth).map fun a => totalStake (losersOf assertions truth) *
            (a.stake / totalStake (winnersOf assertions truth))).sum +
          ((losersOf assertions truth).map fun a => -a.stake).sum :=
        List.sum_map_ite (fun a : Assertion => a.claim = truth) _ _ assertions
    _ = 0 := by rw [shares, forfeits, add_neg_cancel]

theorem stake_profit_nonneg {assertions : List Assertion} (staked : ∀ a ∈ assertions, 0 < a.stake)
    (truth : String) {a : Assertion} (member : a ∈ assertions) :
    0 ≤ a.stake + profit assertions truth a := by
  have own := (staked a member).le
  have pot : 0 ≤ totalStake (losersOf assertions truth) :=
    totalStake_nonneg (fun b loser => staked b (List.mem_of_mem_filter loser))
  have win : 0 ≤ totalStake (winnersOf assertions truth) :=
    totalStake_nonneg (fun b winner => staked b (List.mem_of_mem_filter winner))
  unfold profit
  split_ifs
  · positivity
  · rw [add_neg_cancel]

theorem filter_agent {assertions : List Assertion}
    (distinct : (assertions.map Assertion.agentPubkey).Nodup) {a : Assertion}
    (member : a ∈ assertions) (holds : Assertion → Bool) :
    (assertions.filter holds).filter (fun b => b.agentPubkey = a.agentPubkey) =
      if holds a then [a] else [] := by
  have found : (⟨assertions, distinct⟩ : Table Assertion.agentPubkey).get? a.agentPubkey = some a :=
    (Table.get?_eq_some _ _ _).mpr ⟨member, rfl⟩
  have single : assertions.filter (fun b => b.agentPubkey = a.agentPubkey) = [a] := by
    have rows := Table.filter_key_eq ⟨assertions, distinct⟩ a.agentPubkey
    rwa [found] at rows
  rw [List.filter_comm, single, List.filter_singleton]
  cases holds a <;> rfl

section Settling

variable {verify : Assertion → Bool}

/-- With one assertion to an agent, `settle` awards each agent its profit. -/
theorem settle_profit {assertions : List Assertion} (verified : ∀ a ∈ assertions, verify a = true)
    (distinct : (assertions.map Assertion.agentPubkey).Nodup) {truth : String}
    (won : winnersOf assertions truth ≠ []) :
    (settle verify assertions truth).refunded = false ∧ ∀ a ∈ assertions,
      ((settle verify assertions truth).pnl.lookup a.agentPubkey).getD 0 =
        profit assertions truth a := by
  have all : assertions.filter verify = assertions := List.filter_eq_self.mpr verified
  have winners : (assertions.filter fun a => decide (a.claim = truth)) ≠ [] := won
  simp only [settle, all, if_neg winners]
  refine ⟨trivial, ?_⟩
  intro a member
  have zero : ((assertions.foldl (fun (pnl : Dict String ℚ) b => pnl.set b.agentPubkey 0)
      Dict.empty).lookup a.agentPubkey).getD 0 = 0 := by
    rw [Dict.lookup_foldl_set]
    cases assertions.reverse.find? (fun b => b.agentPubkey = a.agentPubkey) <;> rfl
  rw [Dict.lookup_foldl_add, Dict.lookup_foldl_add, zero, zero_add]
  simp only [ne_eq]
  rw [filter_agent distinct member, filter_agent distinct member]
  unfold profit winnersOf losersOf
  by_cases right : a.claim = truth
  · simp [right]
  · simp [right]

theorem settle_refunds {assertions : List Assertion} (verified : ∀ a ∈ assertions, verify a = true)
    {truth : String} (won : winnersOf assertions truth = []) :
    (settle verify assertions truth).refunded = true := by
  have all : assertions.filter verify = assertions := List.filter_eq_self.mpr verified
  have winners : (assertions.filter fun a => decide (a.claim = truth)) = [] := won
  simp only [settle, all, if_pos winners]

end Settling

/-! The invariant of every reachable market. -/

def bond (a : Assertion) : String × ℚ := (a.agentPubkey, a.stake)

/-- All that is held in escrow, over all open tasks. -/
def BondedMarket.openEscrow (market : BondedMarket) : ℚ :=
  (market.escrow.values.map fun bonds => bonds.values.sum).sum

/-- `total` is the capital the market was opened with. -/
structure Sound (verify : Assertion → Bool) (total : ℚ) (market : BondedMarket) : Prop where
  stakes : ∀ taskId, (market.escrow.lookup taskId).map Table.rows =
    (market.opened.lookup taskId).map (List.map bond)
  verified : ∀ taskId, ∀ a ∈ market.assertionsOn taskId, verify a = true
  solvent : ∀ pubkey, 0 ≤ market.capitalOf pubkey
  conserved : market.totalCapital + market.openEscrow = total

namespace Sound

variable {verify : Assertion → Bool} {total : ℚ} {market : BondedMarket}

theorem escrow_rows (sound : Sound verify total market) (taskId : String) :
    (market.escrowOf taskId).rows = (market.assertionsOn taskId).map bond := by
  have stakes := sound.stakes taskId
  unfold escrowOf assertionsOn
  cases held : market.escrow.lookup taskId with
  | none =>
      cases opened : market.opened.lookup taskId with
      | none => rfl
      | some assertions => simp [held, opened] at stakes
  | some bonds =>
      cases opened : market.opened.lookup taskId with
      | none => simp [held, opened] at stakes
      | some assertions => simpa [held, opened] using stakes

theorem agents_distinct (sound : Sound verify total market) (taskId : String) :
    ((market.assertionsOn taskId).map Assertion.agentPubkey).Nodup := by
  have distinct := (market.escrowOf taskId).distinct
  rw [sound.escrow_rows taskId, List.map_map] at distinct
  exact distinct

theorem openEscrow_close (market : BondedMarket) (taskId : String) :
    (market.close taskId).openEscrow = market.openEscrow - (market.escrowOf taskId).values.sum := by
  have popped := Dict.sum_values_pop market.escrow (fun bonds => bonds.values.sum) taskId
  unfold escrowOf
  cases held : market.escrow.lookup taskId with
  | none =>
      rw [held] at popped
      exact popped
  | some bonds =>
      rw [held] at popped
      exact popped

/-- A task is closed by paying out what its escrow holds. -/
theorem payOut (sound : Sound verify total market) (taskId : String) {delta : String × ℚ → ℚ}
    (gains : ∀ row ∈ (market.escrowOf taskId).rows, 0 ≤ delta row)
    (whole : ((market.escrowOf taskId).rows.map delta).sum = (market.escrowOf taskId).values.sum)
    (reason : Reason) :
    Sound verify total ((market.close taskId).creditAll (market.escrowOf taskId).rows delta reason
      (some taskId)) := by
  obtain ⟨opened, escrow⟩ := creditAll_frame (market.close taskId) (market.escrowOf taskId).rows
    delta reason (some taskId)
  constructor
  · intro other
    rw [opened, escrow, close, Dict.lookup_pop, Dict.lookup_pop]
    split_ifs
    · rfl
    · exact sound.stakes other
  · intro other a member
    rw [assertionsOn, opened, close, Dict.lookup_pop] at member
    split_ifs at member
    · cases member
    · exact sound.verified other a member
  · intro pubkey
    calc
      0 ≤ market.capitalOf pubkey := sound.solvent pubkey
      _ = (market.close taskId).capitalOf pubkey := rfl
      _ ≤ _ := capitalOf_creditAll_ge _ gains reason (some taskId) pubkey
  · calc
      _ = (market.close taskId).totalCapital + ((market.escrowOf taskId).rows.map delta).sum +
            (market.close taskId).openEscrow := by
          rw [totalCapital_creditAll, openEscrow, escrow, ← openEscrow]
      _ = market.totalCapital + market.openEscrow := by
          rw [whole, openEscrow_close, close, totalCapital, totalCapital]
          ring
      _ = total := sound.conserved

theorem stake_nonneg (staked : ∀ a, verify a = true → 0 < a.stake)
    (sound : Sound verify total market) (taskId : String) :
    ∀ row ∈ (market.escrowOf taskId).rows, 0 ≤ row.2 := by
  intro row member
  rw [sound.escrow_rows taskId] at member
  obtain ⟨a, bonded, rfl⟩ := List.mem_map.mp member
  exact (staked a (sound.verified taskId a bonded)).le

/-- The bonds of a task with one more agent's. -/
theorem add_bond (sound : Sound verify total market) {a : Assertion}
    (free : a.agentPubkey ∉ (market.escrowOf a.taskId).keys) :
    ((market.escrowOf a.taskId).add a.agentPubkey a.stake).rows =
      (market.assertionsOn a.taskId ++ [a]).map bond := by
  have absent : (market.escrowOf a.taskId).lookup a.agentPubkey = none := by
    cases found : (market.escrowOf a.taskId).lookup a.agentPubkey with
    | none => rfl
    | some stake => exact absurd ((Dict.mem_keys _ _).mpr ⟨stake, found⟩) free
  rw [Dict.add, Dict.rows_set_absent _ _ _ free, absent, sound.escrow_rows, List.map_append,
    Option.getD_none, zero_add]
  rfl

theorem submit (sound : Sound verify total market) (a : Assertion) : Sound verify total (market.submit verify a).1 := by
  unfold BondedMarket.submit
  split_ifs with refused bonded poor
  · exact sound
  · exact sound
  · exact sound
  · rw [Bool.not_eq_false] at refused
    have bonds := sound.add_bond bonded
    constructor
    · intro taskId
      simp only [Dict.lookup_set]
      split_ifs with same
      · rw [Option.map_some, Option.map_some, bonds]
      · exact sound.stakes taskId
    · intro taskId b member
      simp only [assertionsOn, Dict.lookup_set] at member
      split_ifs at member with same
      · rcases List.mem_append.mp member with before | added
        · exact sound.verified a.taskId b before
        · rw [List.mem_singleton.mp added]
          exact refused
      · exact sound.verified taskId b member
    · intro pubkey
      have before := sound.solvent pubkey
      have charged := capitalOf_credit market a.agentPubkey (-a.stake) .stake (some a.taskId) pubkey
      refine le_of_le_of_eq ?_ charged.symm
      split_ifs with own
      · rw [own] at poor
        linarith
      · linarith
    · have added : ((market.escrowOf a.taskId).add a.agentPubkey a.stake).values.sum =
          (market.escrowOf a.taskId).values.sum + a.stake := by
        rw [Dict.values, bonds, Dict.values, sound.escrow_rows]
        simp [bond]
      have before : ((market.escrow.lookup a.taskId).map fun bonds => bonds.values.sum).getD 0 =
          (market.escrowOf a.taskId).values.sum := by
        unfold escrowOf
        cases market.escrow.lookup a.taskId <;> rfl
      calc
        _ = market.totalCapital + -a.stake + (market.openEscrow -
              (market.escrowOf a.taskId).values.sum +
                ((market.escrowOf a.taskId).add a.agentPubkey a.stake).values.sum) := by
            rw [openEscrow, Dict.sum_values_set, before, ← openEscrow,
              ← totalCapital_credit market a.agentPubkey (-a.stake) .stake (some a.taskId)]
            rfl
        _ = market.totalCapital + market.openEscrow := by
            rw [added]
            ring
        _ = total := sound.conserved

theorem cancel (staked : ∀ a, verify a = true → 0 < a.stake) (sound : Sound verify total market)
    (taskId : String) : Sound verify total (market.cancel taskId) :=
  sound.payOut taskId (sound.stake_nonneg staked taskId) rfl .refund

theorem resolve (staked : ∀ a, verify a = true → 0 < a.stake) (sound : Sound verify total market)
    (taskId truth : String) : Sound verify total (market.resolve verify taskId truth).1 := by
  have verified := sound.verified taskId
  have stakes : ∀ a ∈ market.assertionsOn taskId, 0 < a.stake :=
    fun a member => staked a (verified a member)
  by_cases won : winnersOf (market.assertionsOn taskId) truth = []
  · simp only [BondedMarket.resolve, settle_refunds verified won, if_true]
    exact sound.payOut taskId (sound.stake_nonneg staked taskId) rfl .refund
  · obtain ⟨settled, profits⟩ := settle_profit verified (sound.agents_distinct taskId) won
    simp only [BondedMarket.resolve, settled, Bool.false_eq_true, if_false]
    refine sound.payOut taskId ?_ ?_ .settle
    · intro row member
      rw [sound.escrow_rows taskId] at member
      obtain ⟨a, bonded, rfl⟩ := List.mem_map.mp member
      rw [bond, profits a bonded]
      exact stake_profit_nonneg stakes truth bonded
    · have awarded : ((market.assertionsOn taskId).map fun a =>
          ((settle verify (market.assertionsOn taskId) truth).pnl.lookup a.agentPubkey).getD 0).sum =
          0 := by
        rw [List.map_congr_left profits]
        exact sum_profit stakes won
      calc
        _ = ((market.assertionsOn taskId).map fun a => a.stake +
              ((settle verify (market.assertionsOn taskId) truth).pnl.lookup
                a.agentPubkey).getD 0).sum := by
            rw [sound.escrow_rows taskId, List.map_map]
            rfl
        _ = ((market.assertionsOn taskId).map Assertion.stake).sum := by
            rw [List.sum_map_add, awarded, add_zero]
        _ = (market.escrowOf taskId).values.sum := by
            rw [Dict.values, sound.escrow_rows taskId, List.map_map]
            rfl

theorem step (staked : ∀ a, verify a = true → 0 < a.stake) (sound : Sound verify total market)
    (call : MarketCall) : Sound verify total (market.step verify call) := by
  cases call with
  | submit a => exact sound.submit a
  | resolve taskId truth => exact sound.resolve staked taskId truth
  | cancel taskId => exact sound.cancel staked taskId

theorem start {initialCapital : Dict String ℚ} (funded : ∀ amount ∈ initialCapital.values, 0 ≤ amount) :
    Sound verify initialCapital.values.sum (start initialCapital) := by
  obtain ⟨opened, escrow⟩ := creditAll_frame empty initialCapital.rows Prod.snd .seed none
  constructor
  · intro taskId
    rw [BondedMarket.start, opened, escrow]
    rfl
  · intro taskId a member
    rw [BondedMarket.start, assertionsOn, opened] at member
    cases member
  · intro pubkey
    calc
      0 = empty.capitalOf pubkey := rfl
      _ ≤ (BondedMarket.start initialCapital).capitalOf pubkey :=
          capitalOf_creditAll_ge empty
            (fun row member => funded row.2 (List.mem_map_of_mem member)) .seed none pubkey
  · calc
      _ = empty.totalCapital + (initialCapital.rows.map Prod.snd).sum + empty.openEscrow := by
          rw [BondedMarket.start, totalCapital_creditAll, openEscrow, escrow, ← openEscrow]
      _ = initialCapital.values.sum := by
          simp [totalCapital, openEscrow, empty, Dict.empty, Table.empty, Dict.values]

end Sound

theorem submit_rejected (verify : Assertion → Bool) (market : BondedMarket) (a : Assertion)
    (rejected : (market.submit verify a).2 = false) : (market.submit verify a).1 = market := by
  unfold BondedMarket.submit at rejected ⊢
  split_ifs at rejected ⊢ <;> rfl

/-- Whatever is submitted, resolved and cancelled, capital and escrow add up to the
initial total, nobody's capital is negative, and escrow is what is bonded. -/
theorem capital_conserved (crypto : Crypto) (stakeText : ℚ → List Char)
    (initialCapital : Dict String ℚ) (funded : ∀ amount ∈ initialCapital.values, 0 ≤ amount)
    (calls : List MarketCall) :
    let market := Run.run (step (verifyAssertion crypto stakeText)) (start initialCapital) calls
    market.totalCapital + market.openEscrow = initialCapital.values.sum ∧
      (∀ pubkey, 0 ≤ market.capitalOf pubkey) ∧
      (∀ taskId, (market.escrow.lookup taskId).map Table.rows =
        (market.opened.lookup taskId).map
          (List.map fun a => (a.agentPubkey, a.stake))) ∧
      ∀ a, (market.submit (verifyAssertion crypto stakeText) a).2 = false →
        (market.submit (verifyAssertion crypto stakeText) a).1 = market := by
  intro market
  have staked : ∀ a, verifyAssertion crypto stakeText a = true → 0 < a.stake :=
    fun a verified => stake_pos crypto stakeText verified
  have sound : Sound (verifyAssertion crypto stakeText) initialCapital.values.sum market :=
    Run.kept_run _ (Sound (verifyAssertion crypto stakeText) initialCapital.values.sum)
      (fun state call holds => Sound.step staked holds call) _ calls (Sound.start funded)
  exact ⟨sound.conserved, sound.solvent, sound.stakes,
    fun a rejected => submit_rejected _ market a rejected⟩

end Gyza.Market

namespace Gyza.Sample

open Market

def pledge (seed : UInt8) (claim : String) (stake : ℚ) : Assertion :=
  (signAssertion stakeText (compositor seed) "task-1" claim stake "nonce").getD
    ⟨"", "", "", 0, "", ""⟩

/-- Three agents with ten each. -/
def purses : Dict String ℚ :=
  [1, 2, 3].foldl (fun purses seed => purses.set (compositor seed).pubkeyHex 10) Dict.empty

/-- Two right answers against a wrong one, and the task opened again. -/
def wagers : List MarketCall :=
  [.submit (pledge 1 "yes" 2), .submit (pledge 2 "yes" 4), .submit (pledge 3 "no" 3),
    .resolve "task-1" "yes", .submit (pledge 3 "no" 7)]

end Gyza.Sample

namespace Gyza.Market

theorem capital_conserved_sample :
    let market := Run.run (BondedMarket.step (verifyAssertion Sample.crypto Sample.stakeText))
      (BondedMarket.start Sample.purses) Sample.wagers
    market.totalCapital + market.openEscrow = 30 ∧
      ∀ pubkey, 0 ≤ market.capitalOf pubkey := by
  have funded : ∀ amount ∈ Sample.purses.values, 0 ≤ amount := by decide +kernel
  have whole : Sample.purses.values.sum = 30 := by decide +kernel
  have conserved := capital_conserved Sample.crypto Sample.stakeText Sample.purses funded Sample.wagers
  rw [whole] at conserved
  exact ⟨conserved.1, conserved.2.1⟩

end Gyza.Market

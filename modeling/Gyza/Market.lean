import Gyza.Crypto
import Gyza.Lib.CanonJson
import Gyza.Lib.Dict

/-! The bonded-assertion market (`gyza/economy/market.py`) with exact amounts.

Stakes and capital are rationals; the text of a stake in the signed bytes is a
parameter. Capital is a fold over the entries, never a stored balance. -/

namespace Gyza.Market

open Hex (utf8)
open CanonJson (Doc)

structure Assertion where
  agentPubkey : String
  taskId : String
  claim : String
  stake : ℚ
  nonce : String
  signature : String := ""
  deriving DecidableEq

inductive Reason where
  | seed
  | stake
  | refund
  | settle
  deriving DecidableEq

structure CapitalEntry where
  seq : Nat
  agentPubkey : String
  delta : ℚ
  reason : Reason
  taskId : Option String

structure Settlement where
  taskId : String
  truth : String
  pnl : Dict String ℚ
  pot : ℚ
  winners : List String
  losers : List String
  refunded : Bool

/-- The market without its diversity threshold, which only `decide` reads. -/
structure BondedMarket where
  entries : List CapitalEntry
  opened : Dict String (List Assertion)
  escrow : Dict String (Dict String ℚ)
  history : Dict String (Dict String String)

section Assertions

variable (crypto : Crypto) (stakeText : ℚ → List Char)

def assertionDigest (a : Assertion) : Hex.Bytes :=
  crypto.blake3 (utf8 (Doc.dumps stakeText (.obj
    [("agent_pubkey", .str a.agentPubkey), ("claim", .str a.claim), ("nonce", .str a.nonce),
      ("stake", .float a.stake), ("task_id", .str a.taskId)])))

def verifyAssertion (a : Assertion) : Bool :=
  if a.stake ≤ 0 ∨ a.signature = "" then false
  else
    match Hex.fromhex a.agentPubkey, Hex.fromhex a.signature with
    | some pubkey, some sig =>
        pubkey.length = 32 && crypto.ed25519Verify pubkey (assertionDigest crypto stakeText a) sig
    | _, _ => false

/-- `sign_assertion` with its nonce; `none` is the `ValueError` for a stake not positive. -/
def signAssertion {crypto : Crypto} (identity : LocalCompositor crypto)
    (taskId claim : String) (stake : ℚ) (nonce : String) : Option Assertion :=
  if stake ≤ 0 then none
  else
    let a : Assertion := ⟨identity.pubkeyHex, taskId, claim, stake, nonce, ""⟩
    some { a with signature := identity.sign (assertionDigest crypto stakeText a) }

theorem signAssertion_verifies {crypto : Crypto} {identity : LocalCompositor crypto}
    {taskId claim : String} {stake : ℚ} {nonce : String} {a : Assertion}
    (signed : signAssertion stakeText identity taskId claim stake nonce = some a) :
    verifyAssertion crypto stakeText a = true := by
  unfold signAssertion at signed
  split_ifs at signed with refused
  cases signed
  have decoded : Hex.fromhex identity.pubkeyHex = some identity.publicBytes := Hex.fromhex_encode _
  have sig : ∀ data, Hex.fromhex (identity.sign data) = some (identity.signBytes data) :=
    fun _ => Hex.fromhex_encode _
  simp only [verifyAssertion, refused, identity.sign_ne_empty, or_self, if_false, decoded, sig,
    identity.publicBytes_length, decide_true, Bool.true_and]
  exact identity.signBytes_verifies _

theorem stake_pos {a : Assertion} (verified : verifyAssertion crypto stakeText a = true) :
    0 < a.stake := by
  unfold verifyAssertion at verified
  split_ifs at verified with refused
  push Not at refused
  exact refused.1

end Assertions

def totalStake (assertions : List Assertion) : ℚ := (assertions.map Assertion.stake).sum

/-- `settle`; what is bonded is filtered by `verify_assertion` first. -/
def settle (verify : Assertion → Bool) (assertions : List Assertion) (truth : String) :
    Settlement :=
  let verified := assertions.filter verify
  let winners := verified.filter (fun a => a.claim = truth)
  let losers := verified.filter (fun a => a.claim ≠ truth)
  let pnl : Dict String ℚ :=
    verified.foldl (fun pnl a => pnl.set a.agentPubkey 0) Dict.empty
  let taskId := (verified.head?.map Assertion.taskId).getD ""
  if winners = [] then ⟨taskId, truth, pnl, 0, [], [], true⟩
  else
    let pot := totalStake losers
    let winStake := totalStake winners
    let pnl := losers.foldl (fun pnl a => pnl.add a.agentPubkey (-a.stake)) pnl
    let pnl := winners.foldl (fun pnl a => pnl.add a.agentPubkey (pot * (a.stake / winStake))) pnl
    ⟨taskId, truth, pnl, pot, winners.map Assertion.agentPubkey, losers.map Assertion.agentPubkey,
      false⟩

def foldCapital (entries : List CapitalEntry) (pubkey : String) : ℚ :=
  ((entries.filter (fun e => e.agentPubkey = pubkey)).map CapitalEntry.delta).sum

namespace BondedMarket

def empty : BondedMarket := ⟨[], Dict.empty, Dict.empty, Dict.empty⟩

def credit (market : BondedMarket) (pubkey : String) (delta : ℚ) (reason : Reason)
    (taskId : Option String) : BondedMarket :=
  { market with entries := market.entries ++ [⟨market.entries.length, pubkey, delta, reason, taskId⟩] }

def capitalOf (market : BondedMarket) (pubkey : String) : ℚ := foldCapital market.entries pubkey

def totalCapital (market : BondedMarket) : ℚ := (market.entries.map CapitalEntry.delta).sum

/-- `for pk, amt in amounts.items(): self._credit(pk, ..., reason, task_id)`. -/
def creditAll (market : BondedMarket) (amounts : List (String × ℚ)) (delta : String × ℚ → ℚ)
    (reason : Reason) (taskId : Option String) : BondedMarket :=
  amounts.foldl (fun market row => market.credit row.1 (delta row) reason taskId) market

def start (initialCapital : Dict String ℚ) : BondedMarket :=
  empty.creditAll initialCapital.rows Prod.snd .seed none

/-- `self._escrow.get(task_id, {})`. -/
def escrowOf (market : BondedMarket) (taskId : String) : Dict String ℚ :=
  (market.escrow.lookup taskId).getD Dict.empty

def assertionsOn (market : BondedMarket) (taskId : String) : List Assertion :=
  (market.opened.lookup taskId).getD []

variable (verify : Assertion → Bool)

def submit (market : BondedMarket) (a : Assertion) : BondedMarket × Bool :=
  if verify a = false then (market, false)
  else if a.agentPubkey ∈ (market.escrowOf a.taskId).keys then (market, false)
  else if market.capitalOf a.agentPubkey < a.stake then (market, false)
  else
    let charged := market.credit a.agentPubkey (-a.stake) .stake (some a.taskId)
    ({ charged with
        opened := market.opened.set a.taskId (market.assertionsOn a.taskId ++ [a])
        escrow := market.escrow.set a.taskId ((market.escrowOf a.taskId).add a.agentPubkey a.stake)
        history := market.history.set a.agentPubkey
          (((market.history.lookup a.agentPubkey).getD Dict.empty).set a.taskId a.claim) }, true)

/-- The market after `_open.pop(task_id)` and `_escrow.pop(task_id)`. -/
def close (market : BondedMarket) (taskId : String) : BondedMarket :=
  { market with opened := market.opened.pop taskId, escrow := market.escrow.pop taskId }

def resolve (market : BondedMarket) (taskId truth : String) : BondedMarket × Settlement :=
  let escrow := market.escrowOf taskId
  let s := settle verify (market.assertionsOn taskId) truth
  if s.refunded then
    ((market.close taskId).creditAll escrow.rows Prod.snd .refund (some taskId), s)
  else
    ((market.close taskId).creditAll escrow.rows (fun row => row.2 + (s.pnl.lookup row.1).getD 0)
      .settle (some taskId), s)

def cancel (market : BondedMarket) (taskId : String) : BondedMarket :=
  (market.close taskId).creditAll (market.escrowOf taskId).rows Prod.snd .refund (some taskId)

end BondedMarket

inductive MarketCall where
  | submit (a : Assertion)
  | resolve (taskId truth : String)
  | cancel (taskId : String)

def BondedMarket.step (verify : Assertion → Bool) (market : BondedMarket) :
    MarketCall → BondedMarket
  | .submit a => (market.submit verify a).1
  | .resolve taskId truth => (market.resolve verify taskId truth).1
  | .cancel taskId => market.cancel taskId

end Gyza.Market

/-- Whole stakes as Python writes them. -/
def Gyza.Sample.stakeText (stake : ℚ) : List Char := (stake.num.repr ++ ".0").toList

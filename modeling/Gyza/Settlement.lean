import Gyza.EnvelopeLog
import Gyza.LedgerStore
import Gyza.Lib.Run

/-! The bilateral settlement service (`gyza/economy/settlement.py`).

The callbacks a service is wired with (resolver, acceptance policy, harm guard)
are parameters of each call, so they may change and fail between calls. The
evidence store and the reputation counters are left out: nothing here reads
them. -/

namespace Gyza

/-! Pricing. -/

def creditRates : List (String × Float) :=
  [("llama.cpp:qwen2.5-3b-q4_k_m", 1.0 / 8),
    ("llama.cpp:qwen2.5-7b-q4_k_m", 1.0 / 3),
    ("anthropic:claude-sonnet-4-5", 40.0),
    ("anthropic:claude-opus-4-5", 120.0),
    ("openai:gpt-4o", 50.0),
    ("mock", 0.1)]

def oneCreditCpuSeconds : Float := 1.0

/-- An `int` operand of a float operator. -/
def floatOperand (value : Int) : Except AmountError Float :=
  (Amount.whole value).toFloat

def computeTaskCost (modelIdentifier : String) (tokensOut durationMs : Int) :
    Except AmountError Float := do
  let rate := (creditRates.lookup modelIdentifier).getD 1.0
  let tokens ← floatOperand (max 0 tokensOut)
  let duration ← floatOperand (max 0 durationMs)
  let tokenCost := tokens * rate
  let timeCost := duration / 1000.0 * oneCreditCpuSeconds
  -- `max` keeps its first argument unless the second is greater
  pure (if tokenCost < timeCost * 0.5 then timeCost * 0.5 else tokenCost)

def amountToleranceRatio : Float := 0.20

/-- `claimed == 0.0`, exact for integers. -/
def Amount.isZero : Amount → Bool
  | .real value => value == 0.0
  | .whole value => value = 0
  | .bool value => !value
  | .other _ => false

def withinTolerance (claimed : Amount) (ours ratio : Float) : Except AmountError Bool :=
  if ours == 0.0 then .ok claimed.isZero
  else do
    let value ← claimed.toFloat
    pure (decide ((value - ours).abs ≤ ours.abs * ratio))

/-! Messages, callbacks and outcomes. -/

inductive AcceptanceVerdict where
  | accept
  | defer
  | decline
  deriving DecidableEq

structure HarmDecision where
  admits : Bool
  measured : List (String × Float)
  reasons : List String
  deriving DecidableEq

structure HarmRecord where
  entryId : String
  admitted : Bool
  measured : List (String × Float)
  reasons : List String
  atNs : Int
  deriving DecidableEq

/-- What the handlers take from a payload: the entry `_decode_entry` builds, if
any, and the `__envelope__` sidecar. -/
structure IncomingMessage where
  entry : Option LedgerEntry
  envelope : Option ICPEnvelope
  senderPeerId : String

/-- A callback answers or raises. -/
structure Callbacks where
  resolveEnvelope : String → Except String (Option String)
  acceptancePolicy : Option (LedgerEntry → Except String (AcceptanceVerdict × String))
  harmGuard : Option (List LedgerEntry → LedgerEntry → Except String HarmDecision)
  harmEnforce : Bool
  now : Int

inductive HandlerError where
  | amount (error : AmountError)
  | ledger (error : LedgerError)
  | callback (error : String)
  deriving DecidableEq

inductive Outcome where
  | undecodable
  | misroutePayer
  | misrouteEarner
  | alreadySettled
  | forgedEarnerSig (reason : SignatureReason)
  | unknownWorkItem
  | envelopeMismatch (expected : String)
  | amountTolerance
  | acceptanceDeferred (why : String)
  | acceptanceDeclined (why : String)
  | harmBoundRefused (reasons : List String)
  | signRejected (error : LedgerError)
  | applyFailed (error : LedgerError) (recheck : Option SignatureReason)
  | raised (error : HandlerError)
  /-- The cosigned entry, echoed to the peer the message came from. -/
  | cosigned (entry : LedgerEntry) (echoTo : String)
  | applied (entry : LedgerEntry) (recheck : Option SignatureReason)
  deriving DecidableEq

structure Service where
  ledger : LedgerTable
  settleBb : Option EnvelopeLog
  harmRecords : List HarmRecord

def raising {ε α : Type} (wrap : ε → HandlerError) : Except ε α → Except Outcome α
  | .ok value => .ok value
  | .error error => .error (.raised (wrap error))

section Handlers

variable {crypto : Crypto} (compositor : LocalCompositor crypto)

/-- The checks before anything of the message is absorbed. -/
def admitEarnerSigned (ledger : LedgerTable) (message : IncomingMessage) :
    Except Outcome LedgerEntry :=
  match message.entry with
  | none => .error .undecodable
  | some entry =>
      if entry.fromCompositor ≠ compositor.pubkeyHex then .error .misroutePayer
      else if (getEntry ledger entry.entryId).any (·.settled) then .error .alreadySettled
      else
        match verifyEarnerSignature crypto entry with
        | .error error => .error (.raised (.amount error))
        | .ok (some reason) => .error (.forgedEarnerSig reason)
        | .ok none => .ok entry

/-- The envelope hash the payer expects: from the resolver, or from an envelope
shipped for exactly this work item. -/
def expectedEnvelope (callbacks : Callbacks) (settleBb : Option EnvelopeLog)
    (entry : LedgerEntry) : Except Outcome (Option String) := do
  match ← raising .callback (callbacks.resolveEnvelope entry.workItemId) with
  | some expected => pure (some expected)
  | none =>
      match settleBb.bind (getEnvelope · entry.icpEnvelopeHash) with
      | some shipped =>
          pure (if shipped.actionId = entry.workItemId then some entry.icpEnvelopeHash else none)
      | none => pure none

def checkEnvelope (callbacks : Callbacks) (settleBb : Option EnvelopeLog) (entry : LedgerEntry) :
    Except Outcome Unit := do
  match ← expectedEnvelope callbacks settleBb entry with
  | none => throw .unknownWorkItem
  | some expected =>
      if expected ≠ entry.icpEnvelopeHash then throw (.envelopeMismatch expected)

def checkAmount (entry : LedgerEntry) : Except Outcome Unit := do
  let ours ← raising .amount
    (computeTaskCost entry.modelIdentifier entry.tokensOut entry.durationMs)
  let within ← raising .amount (withinTolerance entry.amountCredits ours amountToleranceRatio)
  if within = false then throw .amountTolerance

def checkAcceptance (callbacks : Callbacks) (entry : LedgerEntry) : Except Outcome Unit :=
  match callbacks.acceptancePolicy with
  | none => pure ()
  | some policy => do
      match ← raising .callback (policy entry) with
      | (.accept, _) => pure ()
      | (.defer, why) => throw (.acceptanceDeferred why)
      | (.decline, why) => throw (.acceptanceDeclined why)

/-- Everything between the absorbed evidence and the harm bound. -/
def protocolChecks (callbacks : Callbacks) (settleBb : Option EnvelopeLog) (entry : LedgerEntry) :
    Except Outcome Unit := do
  checkEnvelope callbacks settleBb entry
  checkAmount entry
  checkAcceptance callbacks entry

/-- The harm bound is recorded whether or not it refuses. -/
def checkHarm (callbacks : Callbacks) (service : Service) (entry : LedgerEntry) :
    Except Outcome Unit × Service :=
  match callbacks.harmGuard with
  | none => (.ok (), service)
  | some guard =>
      match guard (allEntries service.ledger) entry with
      | .error error => (.error (.raised (.callback error)), service)
      | .ok decision =>
          let recorded := { service with
            harmRecords := service.harmRecords ++ [{
              entryId := entry.entryId
              admitted := decision.admits
              measured := decision.measured
              reasons := decision.reasons
              atNs := callbacks.now }] }
          if decision.admits = false ∧ callbacks.harmEnforce = true then
            (.error (.harmBoundRefused decision.reasons), recorded)
          else (.ok (), recorded)

def handleEarnerSigned (service : Service) (callbacks : Callbacks) (message : IncomingMessage) :
    Outcome × Service :=
  match admitEarnerSigned compositor service.ledger message with
  | .error outcome => (outcome, service)
  | .ok entry =>
      let absorbed := { service with
        settleBb := absorbEnvelope crypto service.settleBb message.envelope }
      match protocolChecks callbacks absorbed.settleBb entry with
      | .error outcome => (outcome, absorbed)
      | .ok () =>
          match checkHarm callbacks absorbed entry with
          | (.error outcome, checked) => (outcome, checked)
          | (.ok (), checked) =>
              match signAsPayer compositor checked.ledger entry with
              | .error error =>
                  (if error.isValueError then .signRejected error else .raised (.ledger error),
                    checked)
              | .ok (cosigned, saved) =>
                  (.cosigned cosigned message.senderPeerId, { checked with ledger := saved })

def handlePayerCosigned (service : Service) (message : IncomingMessage) : Outcome × Service :=
  match message.entry with
  | none => (.undecodable, service)
  | some entry =>
      if entry.toCompositor ≠ compositor.pubkeyHex then (.misrouteEarner, service)
      else if (getEntry service.ledger entry.entryId).any (·.settled) then
        (.alreadySettled, service)
      else
        match applyCosignedEntry crypto service.ledger entry with
        | .ok (applied, saved) =>
            match verifyPayerSignature crypto applied with
            | .error error => (.raised (.amount error), { service with ledger := saved })
            | .ok recheck => (.applied applied recheck, { service with ledger := saved })
        | .error error =>
            if error.isValueError then
              match verifyPayerSignature crypto entry with
              | .error error => (.raised (.amount error), service)
              | .ok recheck => (.applyFailed error recheck, service)
            else (.raised (.ledger error), service)

/-- The arguments of `submit_earned`, with the id and time `create_entry` draws. -/
structure EarnedWork where
  payerCompositor : String
  workItemId : String
  icpEnvelopeHash : String
  modelIdentifier : String
  tokensOut : Int
  durationMs : Int
  amount : Option Amount
  entryId : String
  now : Int

/-- The claimed amount, by default the computed cost. -/
def earnedAmount (work : EarnedWork) : Except LedgerError Amount :=
  match work.amount with
  | some amount => .ok amount
  | none =>
      match computeTaskCost work.modelIdentifier work.tokensOut work.durationMs with
      | .ok cost => .ok (.real cost)
      | .error error => .error (.amount error)

def submitEarned (service : Service) (work : EarnedWork) :
    Except LedgerError (LedgerEntry × Service) := do
  let amount ← earnedAmount work
  let entry ← createEntry work.entryId work.payerCompositor compositor.pubkeyHex amount
    work.workItemId work.icpEnvelopeHash work.modelIdentifier work.tokensOut work.durationMs work.now
  let (signed, saved) ← signAsEarner compositor service.ledger entry
  pure (signed, { service with ledger := saved })

inductive SettlementCall where
  | submitEarned (work : EarnedWork)
  | earnerSigned (callbacks : Callbacks) (message : IncomingMessage)
  | payerCosigned (message : IncomingMessage)

/-- The state a call leaves, whether it returned or raised. -/
def settlementStep (service : Service) : SettlementCall → Service
  | .submitEarned work =>
      match submitEarned compositor service work with
      | .ok (_, next) => next
      | .error _ => service
  | .earnerSigned callbacks message => (handleEarnerSigned compositor service callbacks message).2
  | .payerCosigned message => (handlePayerCosigned compositor service message).2

end Handlers

end Gyza

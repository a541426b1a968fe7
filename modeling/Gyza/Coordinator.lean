import Gyza.Audit
import Gyza.Lib.Checks
import Gyza.Subcontract

/-! The subcontract coordinator (`gyza/economy/coordinator.py`) and the grants it
signs (`gyza/economy/delegation.py`).

The injected effects are functions: each is called at most once, so their values
stand for everything they may return or raise. -/

namespace Gyza

open Hex (Bytes utf8)
open CanonJson (Doc)
open PyValue (Fields Value dictGet)
open Wallet (Credits)

/-! Grants. -/

namespace CapabilitySpec

/-- `to_canonical`: the paths are sorted lists. -/
def toCanonical (spec : CapabilitySpec) : Fields :=
  [("ro", .collection .list ((sortedTexts spec.ro).map .str)),
    ("rw", .collection .list ((sortedTexts spec.rw).map .str)),
    ("network", .bool spec.network),
    ("mem_cap", spec.memCap.elim .none .int),
    ("rate_cap", spec.rateCap.elim .none .int)]

def fromCanonical (str : Value → String) (fields : Fields) : CapabilitySpec where
  ro := strset str (dictGet fields "ro" Value.emptyList)
  rw := strset str (dictGet fields "rw" Value.emptyList)
  network := (dictGet fields "network" .none).truthy
  memCap := (dictGet fields "mem_cap" .none).positiveInt
  rateCap := (dictGet fields "rate_cap" .none).positiveInt

end CapabilitySpec

structure DelegationGrant where
  parentEnvelopeHash : String
  parentAgentPubkey : String
  parentManifestHash : String
  childWorkItemId : String
  delegatedAuthority : Fields
  createdAtNs : Int
  schemaVersion : Int := 1
  signature : String := ""

inductive GrantFault where
  | missingParentPubkey
  | unsigned
  | notHex
  | doesNotVerify
  | otherEnvelope
  | otherGranter
  | otherManifest
  | otherChild
  deriving DecidableEq

namespace DelegationGrant

def payloadFields (g : DelegationGrant) : Fields :=
  [("parent_envelope_hash", .str g.parentEnvelopeHash),
    ("parent_agent_pubkey", .str g.parentAgentPubkey),
    ("parent_manifest_hash", .str g.parentManifestHash),
    ("child_work_item_id", .str g.childWorkItemId),
    ("delegated_authority", .dict g.delegatedAuthority),
    ("created_at_ns", .int g.createdAtNs),
    ("schema_version", .int g.schemaVersion)]

section Signatures

variable (crypto : Crypto) (python : Audit.Python)

/-- The digest of every field except `signature`; `none` is an authority without JSON text. -/
def payloadDigest (g : DelegationGrant) : Option Bytes :=
  (Audit.toDoc (.dict g.payloadFields)).map (fun document =>
    crypto.blake3 (utf8 (Doc.dumps python.floatRepr document.normal)))

/-- `sign_grant`; `none` is an exception, which a seed that has not 32 bytes raises. -/
def signGrant (privateKey : Bytes → LocalCompositor crypto) (g : DelegationGrant)
    (parentAgentSeed : Bytes) : Option DelegationGrant :=
  if parentAgentSeed.length ≠ 32 then none
  else
    (g.payloadDigest crypto python).map fun digest =>
      { g with signature := (privateKey parentAgentSeed).sign digest }

def verifyGrant (g : DelegationGrant) : Except GrantFault Unit :=
  if g.parentAgentPubkey = "" then .error .missingParentPubkey
  else if g.signature = "" then .error .unsigned
  else
    match Hex.fromhex g.signature, Hex.fromhex g.parentAgentPubkey with
    | some sig, some pk =>
        if pk.length ≠ 32 then .error .notHex
        else
          match g.payloadDigest crypto python with
          | none => .error .doesNotVerify
          | some digest =>
              if crypto.ed25519Verify pk digest sig then .ok () else .error .doesNotVerify
    | _, _ => .error .notHex

end Signatures

def grantBindsTo (g : DelegationGrant) (parentEnvelopeHash parentAgentPubkey
    parentCapabilityManifestHash childWorkItemId : String) : Except GrantFault Unit :=
  if g.parentEnvelopeHash ≠ parentEnvelopeHash then .error .otherEnvelope
  else if g.parentAgentPubkey ≠ parentAgentPubkey then .error .otherGranter
  else if g.parentManifestHash ≠ parentCapabilityManifestHash then .error .otherManifest
  else if g.childWorkItemId ≠ childWorkItemId then .error .otherChild
  else .ok ()

end DelegationGrant

/-! The coordinator. -/

namespace Coordinator

structure ParentRef where
  agentPubkey : String
  agentSeed : Bytes
  envelopeHash : String
  manifestHash : String
  manifestSpec : CapabilitySpec
  enforcementSpec : CapabilitySpec

structure SubtaskSpec where
  payload : Fields
  required : CapabilitySpec
  bounty : Credits

structure ResultBundle where
  childWorkItemId : String
  childAgentPubkey : String
  childEnvelopeHash : String
  childManifest : Value
  childEnforcement : Value
  subResult : Fields
  chainOk : Bool
  manifestHashOk : Bool

/-- What is raised; an `except Exception` does not catch a cancellation or an interrupt. -/
inductive PyError where
  | exception (text : String)
  | baseException

inductive Effect (α : Type) where
  | returned (value : α)
  | raised (error : PyError)

inductive Awaited where
  | bundle (bundle : ResultBundle)
  | none
  /-- A value that is no bundle, such as `False`. -/
  | other

structure Effects where
  postSubtask : String → SubtaskSpec → DelegationGrant → Effect Unit
  awaitResult : String → Effect Awaited
  /-- The truth value of what `cosign_as_payer` returns. -/
  cosignAsPayer : String → String → Credits → String → Effect Bool

inductive Failure where
  | overDelegation (why : SubsetFault)
  | cannotReserve (why : ReserveRefused)
  | postFailed (text : String)
  | timedOut
  | duplicateDelivery (state : ResvState)
  | chainInvalid
  | manifestHash
  | grantSelfVerify (why : GrantFault)
  | grantBinding (why : GrantFault)
  | boundsDidNotCompose (why : DelegationFault)
  | cosignRaised (text : String)
  | cosignRejected

/-- A `SubResult`, or an exception that leaves `subcontract`. -/
inductive Outcome where
  | returned (result : Except Failure Fields)
  | raised

structure CosignCall where
  childWorkItemId : String
  earnerPubkey : String
  amount : Credits
  childEnvelopeHash : String

/-- How a call ends: its outcome, the book, and the cosignatures it asked for. -/
structure Ended where
  outcome : Outcome
  book : ReservationBook
  cosigned : List CosignCall := []

variable (crypto : Crypto) (python : Audit.Python) (privateKey : Bytes → LocalCompositor crypto)

def fail (book : ReservationBook) (wid : String) (reason : Failure) (cosigned : List CosignCall := []) :
    Ended :=
  ⟨.returned (.error reason), (book.release wid).2, cosigned⟩

def delegationChain (parent : ParentRef) (grant : DelegationGrant) (bundle : ResultBundle) :
    List DelegationHop :=
  [{ agentPubkey := parent.agentPubkey
     manifest := parent.manifestSpec
     enforcement := parent.enforcementSpec },
    { agentPubkey := bundle.childAgentPubkey
      manifest := specFromManifest python.str bundle.childManifest
      enforcement := specFromEnforcement python.str bundle.childEnforcement
      delegated := some (.fromCanonical python.str grant.delegatedAuthority) }]

/-- The pay-iff gate. -/
def payGate (parent : ParentRef) (childWid : String) (grant : DelegationGrant)
    (bundle : ResultBundle) : Except Failure Unit := do
  Checks.demand (bundle.chainOk = true) .chainInvalid
  Checks.demand (bundle.manifestHashOk = true) .manifestHash
  Checks.wrap .grantSelfVerify (grant.verifyGrant crypto python)
  Checks.wrap .grantBinding (grant.grantBindsTo parent.envelopeHash parent.agentPubkey
    parent.manifestHash childWid)
  Checks.wrap .boundsDidNotCompose (verifyDelegation (delegationChain python parent grant bundle))

/-- Steps 7 and 8: pay, then settle the hold. -/
def pay (fx : Effects) (book : ReservationBook) (childWid : String) (subtask : SubtaskSpec)
    (bundle : ResultBundle) : Ended :=
  let asked : List CosignCall :=
    [⟨childWid, bundle.childAgentPubkey, subtask.bounty, bundle.childEnvelopeHash⟩]
  match fx.cosignAsPayer childWid bundle.childAgentPubkey subtask.bounty bundle.childEnvelopeHash with
  | .raised (.exception text) => fail book childWid (.cosignRaised text) asked
  | .raised .baseException => ⟨.raised, book, asked⟩
  | .returned false => fail book childWid .cosignRejected asked
  | .returned true => ⟨.returned (.ok bundle.subResult), (book.settle childWid).2, asked⟩

/-- Steps 5a and 6, for what the wait returned. -/
def deliver (fx : Effects) (parent : ParentRef) (book : ReservationBook) (childWid : String)
    (subtask : SubtaskSpec) (grant : DelegationGrant) (bundle : ResultBundle) : Ended :=
  match (book.resv.lookup childWid).filter (fun r => r.state ≠ .active) with
  | some r => ⟨.returned (.error (.duplicateDelivery r.state)), book, []⟩
  | none =>
      match payGate crypto python parent childWid grant bundle with
      | .error why => fail book childWid why
      | .ok () => pay fx book childWid subtask bundle

def unsignedGrant (parent : ParentRef) (nowNs : Int) (childWid : String) (subtask : SubtaskSpec) :
    DelegationGrant where
  parentEnvelopeHash := parent.envelopeHash
  parentAgentPubkey := parent.agentPubkey
  parentManifestHash := parent.manifestHash
  childWorkItemId := childWid
  delegatedAuthority := subtask.required.toCanonical
  createdAtNs := nowNs

/-- Steps 4 and 5, for a signed grant. -/
def post (fx : Effects) (parent : ParentRef) (book : ReservationBook) (childWid : String)
    (subtask : SubtaskSpec) (grant : DelegationGrant) : Ended :=
  match fx.postSubtask childWid subtask grant with
  | .raised (.exception text) => fail book childWid (.postFailed text)
  | .raised .baseException => ⟨.raised, book, []⟩
  | .returned () =>
      match fx.awaitResult childWid with
      | .raised _ => ⟨.raised, book, []⟩
      | .returned .none => fail book childWid .timedOut
      -- it has no attribute `chain_ok`
      | .returned .other => ⟨.raised, book, []⟩
      | .returned (.bundle bundle) =>
          deliver crypto python fx parent book childWid subtask grant bundle

/-- `subcontract`, with the child id it draws and the wallet's net balance. -/
def subcontract (fx : Effects) (parent : ParentRef) (nowNs : Int) (book : ReservationBook)
    (net : Credits) (childWid : String) (subtask : SubtaskSpec) : Ended :=
  match capabilitySubset subtask.required parent.manifestSpec with
  | .error why => ⟨.returned (.error (.overDelegation why)), book, []⟩
  | .ok () =>
      match book.reserve net childWid subtask.bounty with
      | (.error why, book) => ⟨.returned (.error (.cannotReserve why)), book, []⟩
      | (.ok _, book) =>
          match (unsignedGrant parent nowNs childWid subtask).signGrant crypto python privateKey
            parent.agentSeed with
          | none => ⟨.raised, book, []⟩
          | some grant => post crypto python fx parent book childWid subtask grant

end Coordinator

end Gyza

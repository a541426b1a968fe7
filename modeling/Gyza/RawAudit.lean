import Gyza.RawDag

/-! `audit_provenance(..., governed=True)` over envelopes of any field types, with the
claims that it records (`gyza/verification/ledger.py`, `adapters.py`).

The router's tiers depend on nothing but the claim types, so a report keeps of each
claim its type and what its verifier said. -/

namespace Gyza

open CanonJson (Doc)
open Hex (Bytes utf8)
open PyValue (Fields Value dictGet)
open Audit (AuditError AuditReason Checks Parsed)

namespace RawAudit

/-- `json.loads` of bytes, which detects their encoding; every `ValueError` is malformed. -/
structure Python extends Audit.Python where
  loadsBytes : Bytes → Parsed

/-- The resolvers of a bundle look a field up in a dictionary, which may raise. -/
structure Resolvers where
  artifact : Value → Except AuditError (Option Bytes)
  manifest : Value → Except AuditError (Option Fields)

/-! Claims. -/

inductive Claim where
  | envelopeDag (closed : Bool) (envelopes : List RawEnvelope)
  /-- A malformed key is passed as `None`. -/
  | envelopeSignature (env : RawEnvelope) (pubkey : Option Bytes)
  | artifactContentAddress (art : Option Bytes) (address : Value)
  | decompositionWithinManifest (artifact : Fields) (manifest : Option Fields)
  | combineCoversSiblings (artifact : Fields) (byAction : Dict HashKey RawEnvelope)
  | manifestIdentity (manifest : Fields) (expected : Value)
  | enforcementWithinManifest (enforcement : Value) (manifest : Fields)

inductive ClaimType where
  | envelopeDagClosed
  | envelopeDagOpen
  | envelopeSignature
  | artifactContentAddress
  | decompositionWithinManifest
  | combineCoversSiblings
  | manifestIdentity
  | enforcementWithinManifest
  deriving DecidableEq

def Claim.type : Claim → ClaimType
  | .envelopeDag closed _ => if closed then .envelopeDagClosed else .envelopeDagOpen
  | .envelopeSignature _ _ => .envelopeSignature
  | .artifactContentAddress _ _ => .artifactContentAddress
  | .decompositionWithinManifest _ _ => .decompositionWithinManifest
  | .combineCoversSiblings _ _ => .combineCoversSiblings
  | .manifestIdentity _ _ => .manifestIdentity
  | .enforcementWithinManifest _ _ => .enforcementWithinManifest

/-- An error is a verifier that raised: the claim is unevaluated. -/
structure ClaimVerdict where
  type : ClaimType
  outcome : Except AuditError Bool

def isText (value : Value) (text : String) : Bool :=
  match value with
  | .str other => other = text
  | _ => false

section Verifiers

variable (crypto : Crypto) (python : Audit.Python)

/-- `verify_envelope(env, pk)`, for a key that may be `None`. -/
def verifySignature (env : RawEnvelope) : Option Bytes → Except AuditError Bool
  | some pubkey => RawDag.verifyEnvelope crypto python env pubkey
  | none =>
      if env.signature.truthy = false then .ok false
      else do
        match ← RawDag.fromhexField env.signature with
        | none => pure false
        | some _ => throw .typeError

def decompositionWithin (artifact : Fields) (manifest : Option Fields) : Except AuditError Bool :=
  let subtasks := Audit.subtasksOf artifact
  if subtasks.truthy = false then .ok true
  else do
    let capabilities ← Audit.blockOf (manifest.getD []) "capabilities"
    let spawn ← Audit.blockOf capabilities "spawn"
    if (dictGet spawn "permitted" .none).truthy = false then pure false
    else do
      let budget ← Audit.blockOf spawn "resource_budget"
      let cap ← Audit.maxChildren python budget
      let count ← Audit.len subtasks
      pure ((count : Int) ≤ cap)

/-- `c != combine_id`, for a combiner's id that is a key. -/
def isKey (key : HashKey) (value : Value) : Bool :=
  match hashKey value with
  | .ok other => other = key
  | .error _ => false

/-- `any(c not in by_action for c in siblings)`. -/
def anyMissing (byAction : Dict HashKey RawEnvelope) : List Value → Except AuditError Bool
  | [] => .ok false
  | sibling :: rest => do
      if (byAction.lookup (← hashKey sibling)).isNone then pure true else anyMissing byAction rest

def outputKeys (byAction : Dict HashKey RawEnvelope) (siblings : List Value) :
    Except AuditError (List HashKey) :=
  siblings.mapM (fun sibling => do
    match byAction.lookup (← hashKey sibling) with
    | some env => hashKey env.outputHash
    | none => throw .typeError)

def combineCovers (artifact : Fields) (byAction : Dict HashKey RawEnvelope) :
    Except AuditError Bool :=
  let subtasks := Audit.subtasksOf artifact
  let combineId := dictGet artifact "__combine__" .none
  if subtasks.truthy = false ∨ combineId.truthy = false then .ok true
  else do
    let key ← hashKey combineId
    match byAction.lookup key with
    | none => pure false
    | some combiner => do
        let siblings := (← RawDag.iterate subtasks).filter (fun sibling => !isKey key sibling)
        if ← anyMissing byAction siblings then pure false
        else do
          let expected ← outputKeys byAction siblings
          let inputs ← (← RawDag.iterate combiner.inputHashes).mapM hashKey
          pure (expected.all (fun output => decide (output ∈ inputs)))

/-- The registered verifier of a claim. -/
def Claim.verify : Claim → Except AuditError Bool
  | .envelopeDag closed envelopes =>
      (RawDag.verifyDag crypto python closed envelopes).map RawDagVerification.valid
  | .envelopeSignature env pubkey => verifySignature crypto python env pubkey
  | .artifactContentAddress none _ => .error .typeError
  | .artifactContentAddress (some art) address => .ok (isText address (crypto.hexdigest art))
  | .decompositionWithinManifest artifact manifest => decompositionWithin python artifact manifest
  | .combineCoversSiblings artifact byAction => combineCovers artifact byAction
  | .manifestIdentity manifest expected =>
      match Audit.manifestHashHex crypto python manifest with
      | none => .error .valueError
      | some hash => .ok (isText expected hash)
  | .enforcementWithinManifest enforcement manifest =>
      match enforcementSatisfiesManifest python.str enforcement (.dict manifest) with
      | .error raised => .error (.gate raised)
      | .ok verdict => .ok verdict.isOk

/-- `verify_all`: no exception of a verifier leaves it. -/
def verifyAll (claims : List Claim) : List ClaimVerdict :=
  claims.map (fun claim => ⟨claim.type, claim.verify crypto python⟩)

end Verifiers

/-! Rows. -/

section Rows

variable (crypto : Crypto) (python : Python) (resolvers : Resolvers)

/-- The claims on a decomposition that the artifact announces, read without its encoding. -/
def announced (byAction : Dict HashKey RawEnvelope) (env : RawEnvelope) (art : Option Bytes) :
    Except AuditError (List Claim) :=
  match art.map python.loadsBytes with
  | some (.document (.dict artifact)) =>
      if (Audit.subtasksOf artifact).truthy then do
        let manifest ← resolvers.manifest env.capabilityManifestHash
        pure (.decompositionWithinManifest artifact manifest ::
          if (dictGet artifact "__combine__" .none).truthy then
            [.combineCoversSiblings artifact byAction]
          else [])
      else .ok []
  | some .raises => .error .loads
  | _ => .ok []

/-- The enforcement half of a row, for a record that is a dictionary. -/
def checkExecution (named enforcement : Value) (answer : Option Fields) : Except AuditError Checks :=
  match answer with
  | none =>
      .ok { isExecution := true, manifestBoundOk := false, withinBounds := false,
            reason := some .manifestNotResolvable }
  | some manifest =>
      match Audit.manifestHashHex crypto python.toPython manifest with
      | none => .error .valueError
      | some hash =>
          if isText named hash = false then
            .ok { isExecution := true, manifestBoundOk := false, withinBounds := false,
                  reason := some .manifestOther }
          else
            match enforcementSatisfiesManifest python.str enforcement (.dict manifest) with
            | .error raised => .error (.gate raised)
            | .ok (.ok ()) => .ok { isExecution := true }
            | .ok (.error why) =>
                .ok { isExecution := true, withinBounds := false, reason := some (.outOfBounds why) }

def executionClaims (named enforcement : Value) (answer : Option Fields) : List Claim :=
  match answer with
  | none => []
  | some manifest =>
      [.manifestIdentity manifest named, .enforcementWithinManifest enforcement manifest]

def checkEnforcement (env : RawEnvelope) (enforcement : Value) :
    Except AuditError (Checks × List Claim) :=
  if Audit.isDict enforcement then do
    let answer ← resolvers.manifest env.capabilityManifestHash
    let checks ← checkExecution crypto python env.capabilityManifestHash enforcement answer
    pure (checks, executionClaims env.capabilityManifestHash enforcement answer)
  else .ok ({}, [])

def checkDecomposition (env : RawEnvelope) (subtasks : Value) (checks : Checks) :
    Except AuditError Checks :=
  if subtasks.truthy then do
    let answer ← resolvers.manifest env.capabilityManifestHash
    Audit.checkDecomposition python.toPython subtasks answer checks
  else .ok checks

def checkArtifact (env : RawEnvelope) (art : Bytes) : Except AuditError (Checks × List Claim) := do
  let fields ← Audit.artifactFields python.toPython art
  let (checks, claims) ← checkEnforcement crypto python resolvers env (Audit.enforcementOf fields)
  let checks ← checkDecomposition python resolvers env (Audit.subtasksOf fields) checks
  pure (checks, claims)

structure ActionAudit where
  actionId : Value
  envelopeHash : String
  isExecution : Bool
  bindingOk : Bool
  manifestBoundOk : Bool
  withinBounds : Bool
  ok : Bool
  reason : Option AuditReason

/-- What the checks of a row make of it. -/
def ActionAudit.of (env : RawEnvelope) (hash : String) (art : Option Bytes) (bindingOk : Bool)
    (requireAllArtifacts : Bool) (checks : Checks) : ActionAudit :=
  let bindingSatisfied := bindingOk || (art.isNone && !requireAllArtifacts)
  let ok := bindingSatisfied && checks.manifestBoundOk && checks.withinBounds
  { actionId := env.actionId
    envelopeHash := hash
    isExecution := checks.isExecution
    bindingOk := bindingOk
    manifestBoundOk := checks.manifestBoundOk
    withinBounds := checks.withinBounds
    ok := ok
    reason := if ok then checks.reason else checks.reason.or (some .bindingFailed) }

def checkBinding (requireAllArtifacts : Bool) (env : RawEnvelope) (art : Option Bytes)
    (bindingOk : Bool) : Except AuditError (Checks × List Claim) :=
  match art with
  | none =>
      .ok ({ reason := if requireAllArtifacts then some .artifactNotResolvable else none }, [])
  | some bytes =>
      if bindingOk then checkArtifact crypto python resolvers env bytes
      else .ok ({ reason := some .tampered }, [])

def auditRow (requireAllArtifacts : Bool) (byAction : Dict HashKey RawEnvelope) (env : RawEnvelope) :
    Except AuditError (ActionAudit × List Claim) := do
  let hash ← RawDag.computeEnvelopeHash crypto python.toPython env
  let art ← resolvers.artifact env.outputHash
  let pubkey ← RawDag.fromhexField env.agentPubkey
  let announced ← announced python resolvers byAction env art
  let bindingOk := art.any (fun bytes => isText env.outputHash (crypto.hexdigest bytes))
  let (checks, executed) ← checkBinding crypto python resolvers requireAllArtifacts env art bindingOk
  pure (.of env hash art bindingOk requireAllArtifacts checks,
    .envelopeSignature env pubkey :: .artifactContentAddress art env.outputHash ::
      (announced ++ executed))

/-- `{e.action_id: e for e in envs}`. -/
def byAction (envelopes : List RawEnvelope) : Except AuditError (Dict HashKey RawEnvelope) :=
  envelopes.foldlM (fun dict env => do pure (dict.set (← hashKey env.actionId) env)) Dict.empty

structure AuditReport where
  dag : RawDagVerification
  actions : List ActionAudit
  valid : Bool
  summary : String
  governance : List ClaimVerdict

def summaryOf (envelopes : Nat) (dag : RawDagVerification) (executions : Nat) (valid : Bool) : String :=
  toString envelopes ++ " envelopes, " ++ toString dag.roots.length ++ " root / " ++
    toString dag.leaves.length ++ " leaf, " ++ toString executions ++
    " bounded execution(s); dag=" ++ Audit.validity dag.valid ++ "; verdict=" ++ Audit.validity valid

def auditProvenance (requireClosed requireAllArtifacts : Bool) (envelopes : List RawEnvelope) :
    Except AuditError AuditReport := do
  let dag ← RawDag.verifyDag crypto python.toPython requireClosed envelopes
  let actions ← byAction envelopes
  let audited ← envelopes.mapM (auditRow crypto python resolvers requireAllArtifacts actions)
  let rows := audited.map Prod.fst
  let valid := dag.valid && rows.all (·.ok)
  pure {
    dag := dag
    actions := rows
    valid := valid
    summary := summaryOf envelopes.length dag (rows.filter (·.isExecution)).length valid
    governance := verifyAll crypto python.toPython
      (.envelopeDag requireClosed envelopes :: audited.flatMap Prod.snd) }

end Rows

end RawAudit

end Gyza

import Gyza.Attestation
import Gyza.Envelope
import Gyza.Lib.Checks
import Gyza.Lib.Dict
import Gyza.Lib.PyNumber

/-! The in-process validator: `Validator.verify_response` of
`gyza/network/capability_protocol.py`, with the evaluation verifier of
`gyza/capability_eval.py`. A task computes its expected output in one fixed workdir. -/

namespace Gyza

open CanonJson (Doc)
open Checks (demand present each)
open Hex (Bytes utf8)
open PyNumber (FloatFormat Number)

def evalVersion : String := "v1"

inductive PyType where
  | int
  | bool
  | float
  | str
  | list
  | dict
  deriving DecidableEq

variable {φ : Type}

/-- `isinstance(value, expected)`; a `bool` is an `int`. -/
def isInstance (value : Doc φ) (expected : PyType) : Bool :=
  match value, expected with
  | .int _, .int => true
  | .bool _, .int => true
  | .bool _, .bool => true
  | .float _, .float => true
  | .str _, .str => true
  | .arr _, .list => true
  | .obj _, .dict => true
  | _, _ => false

structure EvalTask (φ : Type) where
  taskId : String
  outputKeys : List (String × PyType)
  expectedOutput : (nonce : String) → Except String (List (String × Doc φ))

structure EvalResult (φ : Type) where
  taskId : String
  succeeded : Bool
  output : Option (List (String × Doc φ))
  outputText : String
  envelope : Option ICPEnvelope
  durationS : Number φ
  error : String

inductive EvalFailure where
  | missingResult
  | failed (error : String)
  | missingEnvelope
  | missingOutput
  | agentMismatch (agentPubkey applicantPubkey : String)
  | signatureInvalid
  | missingKey (key : String)
  | wrongType (key : String) (expected : PyType)
  | outputHash (claimed envelope : String)
  | expectedOutputThrew (error : String)
  | outputMismatch
  | applicantNotHex
  | applicantNot32Bytes
  deriving DecidableEq

/-- A task's message is `none` where the code says "ok". -/
structure EvalReport where
  evalVersion : String
  nonce : String
  applicantPubkey : String
  passed : Bool
  perTask : Dict String (Option EvalFailure)
  totalTasks : Nat
  passedTasks : Nat

structure CapabilityChallenge where
  validatorPubkey : String
  challengeId : String
  evalVersion : String
  taskIds : List String
  nonce : String
  issuedAtNs : Int
  expiresAtNs : Int
  signature : String

structure ChallengeResponse (φ : Type) where
  challengeId : String
  applicantCompositorPubkey : String
  applicantAgentPubkey : String
  certPayload : AttestationCertPayload
  evalResults : Dict String (EvalResult φ)
  nonceEcho : String
  applicantSignature : String

inductive RejectReason where
  | challengeIdMismatch
  | nonceEchoMismatch
  | applicantMismatch
  | applicantSignatureInvalid
  | unsupportedSchema (schema : String)
  | evalVersionMismatch (version : String)
  | outsideClockSkew
  | expiresBeforeIssued
  | lifetimeExceeded
  | evalFailed (failed : List (String × EvalFailure))
  deriving DecidableEq

structure ChallengeOutcome where
  challengeId : String
  accepted : Bool
  cosig : Option ValidatorCosig
  reason : Option RejectReason

structure CapabilityValidator (φ : Type) where
  sign : Bytes → String
  pubkey : String
  tasks : List (EvalTask φ)
  clockSkewNs : Int

/-! Canonical bytes. -/

def ICPEnvelope.toDoc (env : ICPEnvelope) : Doc φ :=
  .obj [("intent_id", .str env.intentId),
    ("action_id", .str env.actionId),
    ("agent_pubkey", .str env.agentPubkey),
    ("capability_manifest_hash", .str env.capabilityManifestHash),
    ("input_hashes", .arr (env.inputHashes.map .str)),
    ("output_hash", .str env.outputHash),
    ("parent_envelope_hash", (env.parentEnvelopeHash.map Doc.str).getD .null),
    ("timestamp_ns", .int env.timestampNs),
    ("inference_backend", .str env.inferenceBackend),
    ("model_identifier", .str env.modelIdentifier),
    ("duration_ms", .int env.durationMs),
    ("tokens_in", .int env.tokensIn),
    ("tokens_out", .int env.tokensOut),
    ("schema_version", .int env.schemaVersion),
    ("signature", .str env.signature)]

def EvalResult.toDoc (result : EvalResult φ) : Doc φ :=
  .obj [("task_id", .str result.taskId),
    ("succeeded", .bool result.succeeded),
    ("output", (result.output.map Doc.obj).getD .null),
    ("output_text", .str result.outputText),
    ("envelope", (result.envelope.map ICPEnvelope.toDoc).getD .null),
    ("duration_s", result.durationS.toDoc),
    ("error", .str result.error)]

def AttestationCertPayload.toDoc (payload : AttestationCertPayload) : Doc φ :=
  .obj [("schema", .str payload.schema),
    ("applicant_compositor_pubkey", .str payload.applicantCompositorPubkey),
    ("eval_version", .str payload.evalVersion),
    ("issued_at_ns", .int payload.issuedAtNs),
    ("expires_at_ns", .int payload.expiresAtNs)]

/-- Everything but the applicant's signature. -/
def ChallengeResponse.toDoc (response : ChallengeResponse φ) : Doc φ :=
  .obj [("challenge_id", .str response.challengeId),
    ("applicant_compositor_pubkey", .str response.applicantCompositorPubkey),
    ("applicant_agent_pubkey", .str response.applicantAgentPubkey),
    ("cert_payload", response.certPayload.toDoc),
    ("eval_results", .obj (response.evalResults.rows.map fun row => (row.1, row.2.toDoc))),
    ("nonce_echo", .str response.nonceEcho)]

/-- The bytes that are signed do not depend on the signature. -/
theorem ChallengeResponse.toDoc_signature (response : ChallengeResponse φ) (signature : String) :
    ChallengeResponse.toDoc { response with applicantSignature := signature } = response.toDoc :=
  rfl

section Validator

variable (crypto : Crypto) (format : FloatFormat φ)

def canonical (document : Doc φ) : Bytes := utf8 (Doc.dumps format.repr document.normal)

def responseCanonicalBytes (response : ChallengeResponse φ) : Bytes :=
  canonical format response.toDoc

/-- The hash the runner puts into an envelope for an output text. -/
def outputTextHash (text : String) : String :=
  crypto.hexdigest (canonical format (.obj [("text", .str text)]))

def checkKey (output : List (String × Doc φ)) (key : String × PyType) :
    Except EvalFailure Unit := do
  let value ← present (output.lookup key.1) (.missingKey key.1)
  demand (isInstance value key.2 = true) (.wrongType key.1 key.2)

/-- `_verify_one`. -/
def verifyOne (task : EvalTask φ) (result : Option (EvalResult φ)) (applicantPubkey : String)
    (applicantPubkeyBytes : Bytes) (nonce : String) : Except EvalFailure Unit := do
  let result ← present result .missingResult
  demand (result.succeeded = true) (.failed result.error)
  let env ← present result.envelope .missingEnvelope
  let output ← present result.output .missingOutput
  demand (env.agentPubkey = applicantPubkey) (.agentMismatch env.agentPubkey applicantPubkey)
  demand (verifyEnvelope crypto env applicantPubkeyBytes = true) .signatureInvalid
  each (checkKey output) task.outputKeys
  let claimed := outputTextHash crypto format result.outputText
  demand (claimed = env.outputHash) (.outputHash claimed env.outputHash)
  let expected ← Checks.wrap .expectedOutputThrew (task.expectedOutput nonce)
  demand (canonical format (.obj output) = canonical format (.obj expected)) .outputMismatch

def EvalReport.record (report : EvalReport) (taskId : String)
    (message : Except EvalFailure Unit) : EvalReport :=
  match message with
  | .ok () =>
      { report with
        perTask := report.perTask.set taskId none
        passedTasks := report.passedTasks + 1 }
  | .error failure =>
      { report with perTask := report.perTask.set taskId (some failure), passed := false }

def verifyEvalResults (results : Dict String (EvalResult φ)) (applicantPubkey nonce : String)
    (tasks : List (EvalTask φ)) : EvalReport :=
  let report : EvalReport :=
    { evalVersion := evalVersion, nonce := nonce, applicantPubkey := applicantPubkey,
      passed := true, perTask := Dict.empty, totalTasks := tasks.length, passedTasks := 0 }
  let refuse := fun failure : EvalFailure =>
    { tasks.foldl (fun (report : EvalReport) task => report.record task.taskId (.error failure))
        report with passed := false }
  match Hex.fromhex applicantPubkey with
  | none => refuse .applicantNotHex
  | some bytes =>
      if bytes.length ≠ 32 then refuse .applicantNot32Bytes
      else
        tasks.foldl (fun (report : EvalReport) task => report.record task.taskId
          (verifyOne crypto format task (results.lookup task.taskId) applicantPubkey bytes nonce))
          report

theorem record_passed_iff (report : EvalReport) (taskId : String)
    (message : Except EvalFailure Unit) :
    (report.record taskId message).passed = true ↔ report.passed = true ∧ message = .ok () := by
  cases message with
  | ok _ => simp [EvalReport.record]
  | error failure => simp [EvalReport.record]

/-- An evaluation passes exactly when the key decodes to 32 bytes and every task passes. -/
theorem evaluation_passed_iff (results : Dict String (EvalResult φ))
    (applicantPubkey nonce : String) (tasks : List (EvalTask φ)) :
    (verifyEvalResults crypto format results applicantPubkey nonce tasks).passed = true ↔
      ∃ bytes, Hex.fromhex applicantPubkey = some bytes ∧ bytes.length = 32 ∧
        ∀ task ∈ tasks, verifyOne crypto format task (results.lookup task.taskId) applicantPubkey
          bytes nonce = .ok () := by
  unfold verifyEvalResults
  cases decoded : Hex.fromhex applicantPubkey with
  | none => simp
  | some bytes =>
      by_cases length : bytes.length = 32
      · have walk : ∀ report : EvalReport,
            (tasks.foldl (fun report task => report.record task.taskId
              (verifyOne crypto format task (results.lookup task.taskId) applicantPubkey bytes
                nonce)) report).passed = true ↔
              report.passed = true ∧ ∀ task ∈ tasks, verifyOne crypto format task
                (results.lookup task.taskId) applicantPubkey bytes nonce = .ok () := by
          induction tasks with
          | nil => simp
          | cons task rest ih =>
              intro report
              rw [List.foldl_cons, ih, record_passed_iff, List.forall_mem_cons, and_assoc]
        simp [length, walk]
      · simp [length]

def EvalReport.failures (report : EvalReport) : List (String × EvalFailure) :=
  report.perTask.rows.filterMap fun row => row.2.map fun failure => (row.1, failure)

def maxCertLifetimeNs : Int := 90 * 24 * 60 * 60 * 1000000000

/-- The checks of `verify_response` and the cosignature, up to the outcome record. -/
def cosignResponse (validator : CapabilityValidator φ) (challenge : CapabilityChallenge)
    (response : ChallengeResponse φ) (now : Int) : Except RejectReason ValidatorCosig := do
  demand (response.challengeId = challenge.challengeId) .challengeIdMismatch
  demand (response.nonceEcho = challenge.nonce) .nonceEchoMismatch
  demand (response.applicantCompositorPubkey = response.certPayload.applicantCompositorPubkey)
    .applicantMismatch
  demand (verifyWith crypto response.applicantCompositorPubkey
    (responseCanonicalBytes format response) response.applicantSignature = true)
    .applicantSignatureInvalid
  let p := response.certPayload
  demand (p.schema = certSchema) (.unsupportedSchema p.schema)
  demand (p.evalVersion = evalVersion) (.evalVersionMismatch p.evalVersion)
  demand (|p.issuedAtNs - now| ≤ validator.clockSkewNs) .outsideClockSkew
  demand (p.issuedAtNs < p.expiresAtNs) .expiresBeforeIssued
  demand (p.expiresAtNs - p.issuedAtNs ≤ maxCertLifetimeNs) .lifetimeExceeded
  let report := verifyEvalResults crypto format response.evalResults response.applicantAgentPubkey
    challenge.nonce validator.tasks
  demand (report.passed = true) (.evalFailed (report.failures.take 3))
  pure
    { validatorPubkey := validator.pubkey
      signature := validator.sign (payloadCanonicalBytes p)
      cosignedAtNs := now }

def CapabilityValidator.verifyResponse (validator : CapabilityValidator φ)
    (challenge : CapabilityChallenge) (response : ChallengeResponse φ) (now : Int) :
    ChallengeOutcome :=
  match cosignResponse crypto format validator challenge response now with
  | .error reason =>
      { challengeId := challenge.challengeId, accepted := false, cosig := none,
        reason := some reason }
  | .ok cosig =>
      { challengeId := challenge.challengeId, accepted := true, cosig := some cosig,
        reason := none }

/-- Everything a response is checked for. The challenge's times are not among it. -/
structure OutcomeChecks (validator : CapabilityValidator φ) (challenge : CapabilityChallenge)
    (response : ChallengeResponse φ) (now : Int) : Prop where
  challengeId : response.challengeId = challenge.challengeId
  nonce : response.nonceEcho = challenge.nonce
  applicant : response.applicantCompositorPubkey = response.certPayload.applicantCompositorPubkey
  signed : verifyWith crypto response.applicantCompositorPubkey
    (responseCanonicalBytes format response) response.applicantSignature = true
  schema : response.certPayload.schema = certSchema
  version : response.certPayload.evalVersion = evalVersion
  skew : |response.certPayload.issuedAtNs - now| ≤ validator.clockSkewNs
  lives : response.certPayload.issuedAtNs < response.certPayload.expiresAtNs
  lifetime : response.certPayload.expiresAtNs - response.certPayload.issuedAtNs ≤ maxCertLifetimeNs
  evaluated : (verifyEvalResults crypto format response.evalResults response.applicantAgentPubkey
    challenge.nonce validator.tasks).passed = true

theorem verifyResponse_accepted_iff (validator : CapabilityValidator φ)
    (challenge : CapabilityChallenge) (response : ChallengeResponse φ) (now : Int) :
    (validator.verifyResponse crypto format challenge response now).accepted = true ↔
      OutcomeChecks crypto format validator challenge response now := by
  have cosigned : (validator.verifyResponse crypto format challenge response now).accepted = true ↔
      ∃ cosig, cosignResponse crypto format validator challenge response now = .ok cosig := by
    unfold CapabilityValidator.verifyResponse
    cases cosignResponse crypto format validator challenge response now with
    | error reason => simp
    | ok cosig => simp
  rw [cosigned]
  simp only [cosignResponse, Checks.bind_ok_iff, Checks.demand_ok_iff, Checks.pure_ok_iff,
    exists_const]
  constructor
  · rintro ⟨cosig, id, nonce, applicant, signed, schema, version, skew, lives, lifetime, evaluated, -⟩
    exact ⟨id, nonce, applicant, signed, schema, version, skew, lives, lifetime, evaluated⟩
  · intro checks
    exact ⟨_, checks.challengeId, checks.nonce, checks.applicant, checks.signed, checks.schema,
      checks.version, checks.skew, checks.lives, checks.lifetime, checks.evaluated, rfl⟩

end Validator

end Gyza

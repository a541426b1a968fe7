import Gyza.Attestation
import Gyza.DhtRecords
import Gyza.Lib.Checks
import Gyza.Lib.Dict

/-! A validator's answer to a capability challenge: `VerifyResponse` of
`internal/capability/capability.go`. -/

namespace Gyza

open Hex (Bytes)
open Checks (demand present each wrap)

structure GoChallengeBody where
  challengerPubkey : String
  applicantPubkey : String
  taskIds : List String
  nonce : Bytes
  issuedAtNs : Int
  expiresAtNs : Int

structure GoChallenge where
  body : Option GoChallengeBody
  challengerSignature : Bytes

structure GoTaskResult where
  taskId : String
  outputJson : Bytes
  icpPayloadBytes : Bytes
  icpSignatureHex : String
  icpAgentPubkeyHex : String

structure GoResponseBody where
  applicantPubkey : String
  challengerPubkey : String
  nonce : Bytes
  taskResults : List GoTaskResult
  completedAtNs : Int

structure GoChallengeResponse where
  body : Option GoResponseBody
  applicantSignature : Bytes
  proposedAttestationBody : Option GoAttestationBody

/-- The wire encoders of the messages that are signed, which fail on malformed strings. -/
structure GoMarshal where
  challenge : GoChallengeBody → Option Bytes
  response : GoResponseBody → Option Bytes
  attestation : GoAttestationBody → Option Bytes

structure ChallengeManager where
  pubkeyHex : String
  signer : Bytes → Bytes

inductive ChallengeError where
  | nilChallenge
  | signatureLength
  | challengerPubkey
  | marshalFailed
  | signatureMismatch
  | issuedInFuture
  | expired
  | nonceLength
  deriving DecidableEq

inductive TaskResultError where
  | agentPubkey
  | signatureHex
  | signatureLength (length : Nat)
  | emptyPayload
  | signatureMismatch
  deriving DecidableEq

inductive ProposedBodyError where
  | applicantMismatch
  | tier (granted : Int)
  | clockSkew (skewNs : Int)
  | expiresBeforeIssued
  | lifetime (lifetimeNs : Int)
  | alreadyPast
  | taskIdsMismatch
  deriving DecidableEq

inductive ResponseError where
  | nilChallenge
  | nilResponse
  | applicantMismatch
  | challengerMismatch
  | nonceMismatch
  | completedBeforeIssued
  | completedAfterExpired
  | missingTaskResult (taskId : String)
  | task (taskId : String) (error : TaskResultError)
  | taskOutput (taskId : String) (error : String)
  | signatureLength
  | applicantPubkey
  | marshalResponse
  | signatureMismatch
  | proposedBody (error : ProposedBodyError)
  | marshalAttestation
  deriving DecidableEq

def defaultAttestationTTL : Int := 30 * 24 * 60 * 60 * 1000000000

def maxAttestationTTL : Int := 90 * 24 * 60 * 60 * 1000000000

def maxAttestationClockSkew : Int := 60 * 60 * 1000000000

def nonceSize : Nat := 32

section VerifyResponse

variable (crypto : Crypto)

/-- The applicant's check of a challenge, which does compare its expiry with the clock. -/
def verifyChallenge (marshal : GoMarshal) (challenge : Option GoChallenge) (nowNs : Int) :
    Except ChallengeError Unit := do
  let challenge ← present challenge .nilChallenge
  let body ← present challenge.body .nilChallenge
  demand (challenge.challengerSignature.length = 64) .signatureLength
  let pubkey ← present (decodePubkey body.challengerPubkey) .challengerPubkey
  let bodyBytes ← present (marshal.challenge body) .marshalFailed
  demand (crypto.ed25519Verify pubkey bodyBytes challenge.challengerSignature = true)
    .signatureMismatch
  demand (body.issuedAtNs ≤ nowNs) .issuedInFuture
  demand (nowNs < body.expiresAtNs) .expired
  demand (body.nonce.length = nonceSize) .nonceLength

theorem verifyChallenge_fresh {marshal : GoMarshal} {challenge : Option GoChallenge} {nowNs : Int}
    (passed : verifyChallenge crypto marshal challenge nowNs = .ok ()) :
    ∃ body, challenge.bind GoChallenge.body = some body ∧ body.issuedAtNs ≤ nowNs ∧
      nowNs < body.expiresAtNs := by
  simp only [verifyChallenge, Checks.bind_ok_iff, Checks.present_ok_iff,
    Checks.demand_ok_iff, exists_const] at passed
  rcases passed with ⟨given, rfl, body, bodied, -, -, -, -, -, -, begun, fresh, -⟩
  exact ⟨body, bodied, begun, fresh⟩

def verifyTaskResult (result : GoTaskResult) : Except TaskResultError Unit := do
  let pubkey ← present (decodePubkey result.icpAgentPubkeyHex) .agentPubkey
  let signature ← present (Hex.decode result.icpSignatureHex) .signatureHex
  demand (signature.length = 64) (.signatureLength signature.length)
  demand (result.icpPayloadBytes ≠ []) .emptyPayload
  demand (crypto.ed25519Verify pubkey (crypto.blake3 result.icpPayloadBytes) signature = true)
    .signatureMismatch

/-- The checks on a proposed body. Differences of `int64` wrap, and so does a negation. -/
def verifyProposedAttestationBody (body : GoAttestationBody) (challenge : GoChallengeBody)
    (nowNs : Int) : Except ProposedBodyError Unit := do
  demand (body.applicantPubkey = challenge.applicantPubkey) .applicantMismatch
  demand (body.tierGranted = issuedTier) (.tier body.tierGranted)
  let difference := goInt64 (body.issuedAtNs - nowNs)
  let skewNs := if difference < 0 then goInt64 (-difference) else difference
  demand (skewNs ≤ maxAttestationClockSkew) (.clockSkew skewNs)
  demand (body.issuedAtNs < body.expiresAtNs) .expiresBeforeIssued
  let lifetime := goInt64 (body.expiresAtNs - body.issuedAtNs)
  demand (lifetime ≤ maxAttestationTTL) (.lifetime lifetime)
  demand (nowNs < body.expiresAtNs) .alreadyPast
  demand (body.challengeTaskIds = challenge.taskIds) .taskIdsMismatch

/-- The results by task id, of two with one id the later. -/
def resultByID (results : List GoTaskResult) : Dict String GoTaskResult :=
  results.foldl (fun byID result => byID.set result.taskId result) Dict.empty

variable (marshal : GoMarshal) (verifyOutput : Option (String → Bytes → Except String Unit))

def verifyTask (results : List GoTaskResult) (taskId : String) : Except ResponseError Unit := do
  let result ← present ((resultByID results).lookup taskId) (.missingTaskResult taskId)
  wrap (.task taskId) (verifyTaskResult crypto result)
  match verifyOutput with
  | none => pure ()
  | some verify => wrap (.taskOutput taskId) (verify taskId result.outputJson)

/-- The body to sign: the applicant's proposal if it is plausible, else the validator's own. -/
def attestationBodyFor (challenge : GoChallengeBody) (response : GoChallengeResponse)
    (applicantPubkey : String) (nowNs : Int) : Except ResponseError GoAttestationBody :=
  match response.proposedAttestationBody with
  | some proposed => do
      wrap .proposedBody (verifyProposedAttestationBody proposed challenge nowNs)
      pure proposed
  | none =>
      .ok { applicantPubkey := applicantPubkey
            issuedAtNs := nowNs
            expiresAtNs := goInt64 (nowNs + defaultAttestationTTL)
            tierGranted := issuedTier
            challengeTaskIds := challenge.taskIds }

def verifyResponse (manager : ChallengeManager) (challenge : Option GoChallenge)
    (response : Option GoChallengeResponse) (nowNs : Int) : Except ResponseError GoCoSignature := do
  let cb ← present (challenge.bind GoChallenge.body) .nilChallenge
  let body ← present (response.bind GoChallengeResponse.body) .nilResponse
  let response ← present response .nilResponse
  demand (body.applicantPubkey = cb.applicantPubkey) .applicantMismatch
  demand (body.challengerPubkey = cb.challengerPubkey) .challengerMismatch
  demand (body.nonce = cb.nonce) .nonceMismatch
  demand (cb.issuedAtNs ≤ body.completedAtNs) .completedBeforeIssued
  demand (body.completedAtNs ≤ cb.expiresAtNs) .completedAfterExpired
  each (verifyTask crypto verifyOutput body.taskResults) cb.taskIds
  demand (response.applicantSignature.length = 64) .signatureLength
  let pubkey ← present (decodePubkey body.applicantPubkey) .applicantPubkey
  let bodyBytes ← present (marshal.response body) .marshalResponse
  demand (crypto.ed25519Verify pubkey bodyBytes response.applicantSignature = true)
    .signatureMismatch
  let attestBody ← attestationBodyFor cb response body.applicantPubkey nowNs
  let attestBytes ← present (marshal.attestation attestBody) .marshalAttestation
  pure
    { validatorPubkey := manager.pubkeyHex
      signature := manager.signer attestBytes
      signedAtNs := nowNs }

/-- Everything a response is checked for, but the time it is received at. -/
structure ResponseChecks (cb : GoChallengeBody) (body : GoResponseBody)
    (response : GoChallengeResponse) (nowNs : Int) : Prop where
  applicant : body.applicantPubkey = cb.applicantPubkey
  challenger : body.challengerPubkey = cb.challengerPubkey
  nonce : body.nonce = cb.nonce
  notEarly : cb.issuedAtNs ≤ body.completedAtNs
  notLate : body.completedAtNs ≤ cb.expiresAtNs
  tasks : ∀ taskId ∈ cb.taskIds, verifyTask crypto verifyOutput body.taskResults taskId = .ok ()
  signed : response.applicantSignature.length = 64 ∧ ∃ pubkey bytes,
    decodePubkey body.applicantPubkey = some pubkey ∧ marshal.response body = some bytes ∧
      crypto.ed25519Verify pubkey bytes response.applicantSignature = true
  attestation : ∃ attestBody attestBytes,
    attestationBodyFor cb response body.applicantPubkey nowNs = .ok attestBody ∧
      marshal.attestation attestBody = some attestBytes

theorem verifyResponse_ok_iff (manager : ChallengeManager) (cb : GoChallengeBody)
    (challengerSignature : Bytes) (response : GoChallengeResponse) (nowNs : Int) :
    (∃ cosignature, verifyResponse crypto marshal verifyOutput manager
        (some ⟨some cb, challengerSignature⟩) (some response) nowNs = .ok cosignature) ↔
      ∃ body, response.body = some body ∧
        ResponseChecks crypto marshal verifyOutput cb body response nowNs := by
  simp only [verifyResponse, Option.bind_some, Checks.bind_ok_iff, Checks.present_ok_iff,
    Checks.demand_ok_iff, Checks.each_ok_iff, Checks.pure_ok_iff, Option.some.injEq,
    exists_eq_left', exists_const]
  constructor
  · rintro ⟨cosignature, body, given, applicant, challenger, nonce, early, late, tasks, length,
      pubkey, decoded, bytes, marshals, verified, attestBody, chosen, attestBytes, attested, -⟩
    exact ⟨body, given, applicant, challenger, nonce, early, late, tasks,
      ⟨length, pubkey, bytes, decoded, marshals, verified⟩, attestBody, attestBytes, chosen,
      attested⟩
  · rintro ⟨body, given, checks⟩
    rcases checks.signed with ⟨length, pubkey, bytes, decoded, marshals, verified⟩
    rcases checks.attestation with ⟨attestBody, attestBytes, chosen, attested⟩
    exact ⟨_, body, given, checks.applicant, checks.challenger, checks.nonce, checks.notEarly,
      checks.notLate, checks.tasks, length, pubkey, decoded, bytes, marshals, verified, attestBody,
      chosen, attestBytes, attested, rfl⟩

end VerifyResponse

end Gyza

import Gyza.CapabilityEval
import Gyza.Challenge

/-! Whether a validator refuses a response after its challenge has expired. -/

namespace Gyza

open Hex (Bytes)
open PyNumber (FloatFormat)

section Freshness

variable (crypto : Crypto) (marshal : GoMarshal)
  (verifyOutput : Option (String → Bytes → Except String Unit)) (manager : ChallengeManager)

/-- Past the challenge's expiry, `VerifyResponse` returns an error. -/
def GoRefusesStale (challenge : Option GoChallenge) (response : Option GoChallengeResponse)
    (nowNs : Int) : Prop :=
  ∀ cb, challenge.bind GoChallenge.body = some cb → cb.expiresAtNs < nowNs →
    ∃ error, verifyResponse crypto marshal verifyOutput manager challenge response nowNs =
      .error error

theorem goRefusesStale_iff (challenge : Option GoChallenge) (response : Option GoChallengeResponse)
    (nowNs : Int) :
    GoRefusesStale crypto marshal verifyOutput manager challenge response nowNs ↔
      ∀ cb answer body, challenge.bind GoChallenge.body = some cb → response = some answer →
        answer.body = some body →
          nowNs ≤ cb.expiresAtNs ∨
            ¬ResponseChecks crypto marshal verifyOutput cb body answer nowNs := by
  constructor
  · intro refuses cb answer body challenged answered bodied
    rcases le_or_gt nowNs cb.expiresAtNs with fresh | stale
    · exact Or.inl fresh
    · right
      intro checks
      rcases challenge with _ | ⟨_ | other, challengerSignature⟩
      · cases challenged
      · cases challenged
      · cases challenged
        subst answered
        apply (Checks.failed_iff _).mp (refuses cb rfl stale)
        exact (verifyResponse_ok_iff crypto marshal verifyOutput manager cb challengerSignature
          answer nowNs).mpr ⟨body, bodied, checks⟩
  · intro condition cb challenged stale
    apply (Checks.failed_iff _).mpr
    intro accepted
    rcases challenge with _ | ⟨_ | other, challengerSignature⟩
    · cases challenged
    · cases challenged
    · cases challenged
      cases response with
      | none =>
          rcases accepted with ⟨cosignature, accepted⟩
          simp [verifyResponse] at accepted
      | some answer =>
          rcases (verifyResponse_ok_iff crypto marshal verifyOutput manager cb challengerSignature
            answer nowNs).mp accepted with ⟨body, bodied, checks⟩
          rcases condition cb answer body rfl rfl bodied with fresh | refused
          · omega
          · exact refused checks

variable {φ : Type} (format : FloatFormat φ) (validator : CapabilityValidator φ)

/-- Past the challenge's expiry, `verify_response` does not accept. -/
def PythonRefusesStale (challenge : CapabilityChallenge) (response : ChallengeResponse φ)
    (now : Int) : Prop :=
  challenge.expiresAtNs < now →
    (validator.verifyResponse crypto format challenge response now).accepted = false

theorem pythonRefusesStale_iff (challenge : CapabilityChallenge) (response : ChallengeResponse φ)
    (now : Int) :
    PythonRefusesStale crypto format validator challenge response now ↔
      now ≤ challenge.expiresAtNs ∨
        ¬OutcomeChecks crypto format validator challenge response now := by
  unfold PythonRefusesStale
  rw [← Bool.not_eq_true, verifyResponse_accepted_iff, ← not_lt, imp_iff_not_or]

/-- A response past its challenge's expiry is refused only for what else is wrong with it. -/
theorem stale_response_refused_iff (challenge : Option GoChallenge)
    (response : Option GoChallengeResponse) (nowNs : Int)
    (pythonChallenge : CapabilityChallenge) (pythonResponse : ChallengeResponse φ) (now : Int) :
    (GoRefusesStale crypto marshal verifyOutput manager challenge response nowNs ↔
      ∀ cb answer body, challenge.bind GoChallenge.body = some cb → response = some answer →
        answer.body = some body →
          nowNs ≤ cb.expiresAtNs ∨
            ¬ResponseChecks crypto marshal verifyOutput cb body answer nowNs) ∧
      (PythonRefusesStale crypto format validator pythonChallenge pythonResponse now ↔
        now ≤ pythonChallenge.expiresAtNs ∨
          ¬OutcomeChecks crypto format validator pythonChallenge pythonResponse now) :=
  ⟨goRefusesStale_iff crypto marshal verifyOutput manager challenge response nowNs,
    pythonRefusesStale_iff crypto format validator pythonChallenge pythonResponse now⟩

end Freshness

/-! A response sent long after the challenge expired, with a completion time inside
the window. Key 1 is the applicant's, key 2 its agent's, key 3 the validator's. -/

namespace Backdated

def applicant : LocalCompositor Sample.crypto := Sample.compositor 1

def agent : LocalCompositor Sample.crypto := Sample.compositor 2

def validatorKey : LocalCompositor Sample.crypto := Sample.compositor 3

def now : Int := 10 ^ 15

def goMarshal : GoMarshal where
  challenge := fun body => some body.nonce
  response := fun body => some body.nonce
  attestation := fun body => some (Sample.marshalBody body)

def goChallengeBody : GoChallengeBody where
  challengerPubkey := validatorKey.pubkeyHex
  applicantPubkey := applicant.pubkeyHex
  taskIds := ["file_list_001"]
  nonce := List.replicate 32 7
  issuedAtNs := 1000
  expiresAtNs := 2000

def goChallenge : GoChallenge :=
  { body := some goChallengeBody, challengerSignature := validatorKey.signBytes goChallengeBody.nonce }

def taskResult : GoTaskResult where
  taskId := "file_list_001"
  outputJson := []
  icpPayloadBytes := [1]
  icpSignatureHex := agent.sign (Sample.crypto.blake3 [1])
  icpAgentPubkeyHex := agent.pubkeyHex

def goResponseBody : GoResponseBody where
  applicantPubkey := applicant.pubkeyHex
  challengerPubkey := validatorKey.pubkeyHex
  nonce := goChallengeBody.nonce
  taskResults := [taskResult]
  completedAtNs := 1500

def goResponse : GoChallengeResponse where
  body := some goResponseBody
  applicantSignature := applicant.signBytes goResponseBody.nonce
  proposedAttestationBody := none

theorem decodePubkey_pubkeyHex (key : LocalCompositor Sample.crypto) :
    decodePubkey key.pubkeyHex = some key.publicBytes := by
  have decoded : Hex.decode key.pubkeyHex = some key.publicBytes := Hex.decode_encode _
  simp [decodePubkey, decoded, key.publicBytes_length]

theorem taskResult_verifies : verifyTaskResult Sample.crypto taskResult = .ok () := by
  have signature : Hex.decode taskResult.icpSignatureHex =
      some (agent.signBytes (Sample.crypto.blake3 [1])) := Hex.decode_encode _
  have pubkey : decodePubkey taskResult.icpAgentPubkeyHex = some agent.publicBytes :=
    decodePubkey_pubkeyHex agent
  simp only [verifyTaskResult, Checks.bind_ok_iff, Checks.present_ok_iff, Checks.demand_ok_iff,
    exists_const]
  exact ⟨_, pubkey, _, signature, agent.signBytes_length _, List.cons_ne_nil _ _,
    agent.signBytes_verifies _⟩

theorem goResponse_checks :
    ResponseChecks Sample.crypto goMarshal none goChallengeBody goResponseBody goResponse now where
  applicant := rfl
  challenger := rfl
  nonce := rfl
  notEarly := by decide
  notLate := by decide
  tasks := by
    intro taskId listed
    rw [List.mem_singleton.mp listed]
    simp only [verifyTask, Checks.bind_ok_iff, Checks.present_ok_iff, Checks.wrap_ok_iff,
      Checks.pure_ok_iff]
    exact ⟨taskResult, rfl, (), taskResult_verifies, trivial⟩
  signed := ⟨applicant.signBytes_length _, _, _, decodePubkey_pubkeyHex applicant, rfl,
    applicant.signBytes_verifies _⟩
  attestation := ⟨_, _, rfl, rfl⟩

def echoTask : EvalTask Int where
  taskId := "echo_nonce"
  outputKeys := [("nonce", .str)]
  expectedOutput := fun nonce => .ok [("nonce", .str nonce)]

def validator : CapabilityValidator Int where
  sign := validatorKey.sign
  pubkey := validatorKey.pubkeyHex
  tasks := [echoTask]
  clockSkewNs := 60 * 60 * 1000000000

def challenge : CapabilityChallenge where
  validatorPubkey := validatorKey.pubkeyHex
  challengeId := "c1"
  evalVersion := evalVersion
  taskIds := ["echo_nonce"]
  nonce := "n1"
  issuedAtNs := 1000
  expiresAtNs := 2000
  signature := ""

def unsignedEnvelope : ICPEnvelope where
  intentId := "i1"
  actionId := "a1"
  agentPubkey := agent.pubkeyHex
  capabilityManifestHash := "m1"
  inputHashes := ["h1"]
  outputHash := outputTextHash Sample.crypto PyNumber.wholeFormat "n1"
  parentEnvelopeHash := none
  timestampNs := 1500
  inferenceBackend := "mock"
  modelIdentifier := "mock"
  durationMs := 5
  tokensIn := 3
  tokensOut := 4

def envelope : ICPEnvelope := signEnvelope agent unsignedEnvelope

def evalResult : EvalResult Int where
  taskId := "echo_nonce"
  succeeded := true
  output := some [("nonce", .str "n1")]
  outputText := "n1"
  envelope := some envelope
  durationS := .int 1
  error := ""

def unsignedResponse : ChallengeResponse Int where
  challengeId := "c1"
  applicantCompositorPubkey := applicant.pubkeyHex
  applicantAgentPubkey := agent.pubkeyHex
  certPayload := ⟨certSchema, applicant.pubkeyHex, evalVersion, now, now + 1⟩
  evalResults := Dict.empty.set "echo_nonce" evalResult
  nonceEcho := "n1"
  applicantSignature := ""

def response : ChallengeResponse Int :=
  { unsignedResponse with
    applicantSignature :=
      applicant.sign (responseCanonicalBytes PyNumber.wholeFormat unsignedResponse) }

theorem verifyWith_sign (key : LocalCompositor Sample.crypto) (payload : Bytes) :
    verifyWith Sample.crypto key.pubkeyHex payload (key.sign payload) = true := by
  have pubkey : Hex.fromhex key.pubkeyHex = some key.publicBytes := Hex.fromhex_encode _
  have signature : Hex.fromhex (key.sign payload) = some (key.signBytes payload) :=
    Hex.fromhex_encode _
  simp [verifyWith, pubkey, signature, key.publicBytes_length, key.signBytes_verifies]

theorem envelope_verifies : verifyEnvelope Sample.crypto envelope agent.publicBytes = true := by
  have pubkey : pubkeyBytesOf envelope = some agent.publicBytes := Hex.fromhex_encode _
  have own : selfVerifies Sample.crypto envelope = true :=
    signEnvelope_verifies agent unsignedEnvelope rfl
  rw [selfVerifies, pubkey, Bool.and_eq_true] at own
  exact own.2

theorem echo_passes : verifyOne Sample.crypto PyNumber.wholeFormat echoTask (some evalResult)
    agent.pubkeyHex agent.publicBytes "n1" = .ok () := by
  simp only [verifyOne, Checks.bind_ok_iff, Checks.present_ok_iff, Checks.demand_ok_iff,
    Checks.each_ok_iff, Checks.wrap_ok_iff, exists_const]
  refine ⟨evalResult, rfl, rfl, envelope, rfl, [("nonce", .str "n1")], rfl, rfl, envelope_verifies,
    ?_, rfl, [("nonce", .str "n1")], rfl, rfl⟩
  intro key listed
  rw [List.mem_singleton.mp listed]
  rfl

theorem evaluation_passes : (verifyEvalResults Sample.crypto PyNumber.wholeFormat
    response.evalResults response.applicantAgentPubkey challenge.nonce validator.tasks).passed =
      true := by
  rw [evaluation_passed_iff]
  refine ⟨agent.publicBytes, Hex.fromhex_encode _, agent.publicBytes_length, ?_⟩
  intro task listed
  rw [show task = echoTask from List.mem_singleton.mp listed]
  exact echo_passes

theorem response_signed : verifyWith Sample.crypto response.applicantCompositorPubkey
    (responseCanonicalBytes PyNumber.wholeFormat response) response.applicantSignature = true := by
  have unsigned : response.toDoc = unsignedResponse.toDoc :=
    unsignedResponse.toDoc_signature _
  rw [responseCanonicalBytes, unsigned]
  exact verifyWith_sign applicant (responseCanonicalBytes PyNumber.wholeFormat unsignedResponse)

theorem response_checks : OutcomeChecks Sample.crypto PyNumber.wholeFormat validator challenge
    response now where
  challengeId := rfl
  nonce := rfl
  applicant := rfl
  signed := response_signed
  schema := rfl
  version := rfl
  skew := by decide
  lives := by decide
  lifetime := by decide
  evaluated := evaluation_passes

end Backdated

open Backdated in
/-- Both validators cosign a response to a challenge that expired long ago. -/
theorem backdated_response_cosigned :
    ¬GoRefusesStale Sample.crypto goMarshal none ⟨validatorKey.pubkeyHex, validatorKey.signBytes⟩
        (some goChallenge) (some goResponse) now ∧
      ¬PythonRefusesStale Sample.crypto PyNumber.wholeFormat validator challenge response now := by
  constructor
  · intro refuses
    rcases (goRefusesStale_iff _ _ _ _ _ _ _).mp refuses goChallengeBody goResponse goResponseBody
      rfl rfl rfl with fresh | refused
    · exact absurd fresh (by decide)
    · exact refused goResponse_checks
  · intro refuses
    rcases (pythonRefusesStale_iff _ _ _ _ _ _).mp refuses with fresh | refused
    · exact absurd fresh (by decide)
    · exact refused response_checks

end Gyza

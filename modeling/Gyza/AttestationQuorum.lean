import Gyza.StaleResponse

/-! A Tier-3 attestation driven against a list of validators (`run_attestation` of
`gyza/network/capability_protocol.py`), and its certificate before `verify_attestation_cert`. -/

namespace Gyza

open CanonJson (Doc)
open Checks (demand)
open Hex (Bytes)
open PyNumber (FloatFormat)
open Quorum (countValid)

variable {φ : Type}

def defaultCertLifetimeNs : Int := 30 * 24 * 60 * 60 * 1000000000

def challengeValidityNs : Int := 5 * 60 * 1000000000

/-- Everything but the validator's signature. -/
def CapabilityChallenge.toDoc (challenge : CapabilityChallenge) : Doc φ :=
  .obj [("validator_pubkey", .str challenge.validatorPubkey),
    ("challenge_id", .str challenge.challengeId),
    ("eval_version", .str challenge.evalVersion),
    ("task_ids", .arr (challenge.taskIds.map .str)),
    ("nonce", .str challenge.nonce),
    ("issued_at_ns", .int challenge.issuedAtNs),
    ("expires_at_ns", .int challenge.expiresAtNs)]

structure CapabilityApplicant where
  sign : Bytes → String
  compositorPubkey : String
  agentPubkey : String

/-- What one contact with a validator brings: identifiers, readings of the clock, the results of
the evaluation, and the exceptions raised before and after the applicant answers. -/
structure Visit (φ : Type) where
  challengeId : String
  nonce : String
  issuedAt : Int
  respondedAt : Int
  verifiedAt : Int
  prepared : Except String Unit
  evaluated : Except String (Dict String (EvalResult φ))
  checked : Except String Unit

inductive ContactError where
  | unsupportedVersion (demanded : String)
  | challengeSignatureInvalid
  | challengeExpired
  | threw (error : String)

/-- An entry of `per_validator`. -/
inductive ValidatorReport where
  | outcome (outcome : ChallengeOutcome)
  | threw (error : ContactError)

structure AttestationOutcome where
  cert : Option AttestationCert
  perValidator : Dict String ValidatorReport
  quorumMet : Bool

inductive QuorumError where
  | tooSmall
  | exceedsValidators (quorumK : Int) (validators : Nat)

section Contact

variable (crypto : Crypto) (format : FloatFormat φ)

def challengeCanonicalBytes (challenge : CapabilityChallenge) : Bytes :=
  canonical format challenge.toDoc

def CapabilityValidator.issueChallenge (validator : CapabilityValidator φ) (visit : Visit φ) :
    CapabilityChallenge :=
  let challenge : CapabilityChallenge :=
    { validatorPubkey := validator.pubkey
      challengeId := visit.challengeId
      evalVersion := evalVersion
      taskIds := validator.tasks.map EvalTask.taskId
      nonce := visit.nonce
      issuedAtNs := visit.issuedAt
      expiresAtNs := visit.issuedAt + challengeValidityNs
      signature := "" }
  { challenge with signature := validator.sign (challengeCanonicalBytes format challenge) }

def CapabilityApplicant.respondToChallenge (applicant : CapabilityApplicant)
    (challenge : CapabilityChallenge) (payload : AttestationCertPayload) (now : Int)
    (evaluated : Except String (Dict String (EvalResult φ))) :
    Except ContactError (ChallengeResponse φ) := do
  demand (challenge.evalVersion = evalVersion) (.unsupportedVersion challenge.evalVersion)
  demand (verifyWith crypto challenge.validatorPubkey (challengeCanonicalBytes format challenge)
    challenge.signature = true) .challengeSignatureInvalid
  demand (now ≤ challenge.expiresAtNs) .challengeExpired
  let results ← Checks.wrap .threw evaluated
  let response : ChallengeResponse φ :=
    { challengeId := challenge.challengeId
      applicantCompositorPubkey := applicant.compositorPubkey
      applicantAgentPubkey := applicant.agentPubkey
      certPayload := payload
      evalResults := results
      nonceEcho := challenge.nonce
      applicantSignature := "" }
  pure { response with
    applicantSignature := applicant.sign (responseCanonicalBytes format response) }

/-- The body of the loop that may raise. -/
def contactValidator (applicant : CapabilityApplicant) (payload : AttestationCertPayload)
    (validator : CapabilityValidator φ) (visit : Visit φ) :
    Except ContactError ChallengeOutcome := do
  let challenge := validator.issueChallenge format visit
  Checks.wrap .threw visit.prepared
  let response ←
    applicant.respondToChallenge crypto format challenge payload visit.respondedAt visit.evaluated
  Checks.wrap .threw visit.checked
  pure (validator.verifyResponse crypto format challenge response visit.verifiedAt)

structure QuorumCollected where
  cosigs : List ValidatorCosig
  perValidator : Dict String ValidatorReport

def QuorumCollected.record (run : QuorumCollected) (pubkey : String)
    (contact : Except ContactError ChallengeOutcome) : QuorumCollected :=
  match contact with
  | .error error => { run with perValidator := run.perValidator.set pubkey (.threw error) }
  | .ok outcome =>
      { cosigs := if outcome.accepted then run.cosigs ++ outcome.cosig.toList else run.cosigs
        perValidator := run.perValidator.set pubkey (.outcome outcome) }

/-- The loop over the validators, which ends once there are cosignatures enough. -/
def collectCosigs (applicant : CapabilityApplicant) (payload : AttestationCertPayload)
    (quorumK : Int) : List (CapabilityValidator φ × Visit φ) → QuorumCollected → QuorumCollected
  | [], run => run
  | (validator, visit) :: rest, run =>
      let next := run.record validator.pubkey
        (contactValidator crypto format applicant payload validator visit)
      if quorumK ≤ next.cosigs.length then next
      else collectCosigs applicant payload quorumK rest next

def proposedPayload (applicant : CapabilityApplicant) (now : Int) : AttestationCertPayload where
  schema := certSchema
  applicantCompositorPubkey := applicant.compositorPubkey
  evalVersion := evalVersion
  issuedAtNs := now
  expiresAtNs := now + defaultCertLifetimeNs

def runAttestation (applicant : CapabilityApplicant)
    (validators : List (CapabilityValidator φ × Visit φ)) (quorumK now : Int) :
    Except QuorumError AttestationOutcome :=
  if quorumK < 1 then .error .tooSmall
  else if (validators.length : Int) < quorumK then
    .error (.exceedsValidators quorumK validators.length)
  else
    let payload := proposedPayload applicant now
    let run := collectCosigs crypto format applicant payload quorumK validators ⟨[], Dict.empty⟩
    if quorumK ≤ run.cosigs.length then
      .ok { cert := some ⟨payload, run.cosigs⟩
            perValidator := run.perValidator
            quorumMet := true }
    else .ok { cert := none, perValidator := run.perValidator, quorumMet := false }

/-- The cosignature that one contact adds. -/
def contactCosig (applicant : CapabilityApplicant) (payload : AttestationCertPayload)
    (entry : CapabilityValidator φ × Visit φ) : Option ValidatorCosig :=
  match contactValidator crypto format applicant payload entry.1 entry.2 with
  | .error _ => none
  | .ok outcome => if outcome.accepted then outcome.cosig else none

end Contact

/-! The cosignatures collected are the first ones there are. -/

section Collecting

variable (crypto : Crypto) (format : FloatFormat φ) (applicant : CapabilityApplicant)
  (payload : AttestationCertPayload)

theorem record_cosigs (run : QuorumCollected) (entry : CapabilityValidator φ × Visit φ) :
    (run.record entry.1.pubkey
      (contactValidator crypto format applicant payload entry.1 entry.2)).cosigs =
      run.cosigs ++ (contactCosig crypto format applicant payload entry).toList := by
  rw [contactCosig]
  cases contactValidator crypto format applicant payload entry.1 entry.2 with
  | error error => exact (List.append_nil run.cosigs).symm
  | ok outcome =>
      simp only [QuorumCollected.record]
      split_ifs
      · rfl
      · exact (List.append_nil run.cosigs).symm

theorem collectCosigs_cosigs {quorum : Nat}
    (validators : List (CapabilityValidator φ × Visit φ)) {run : QuorumCollected}
    (short : run.cosigs.length < quorum) :
    (collectCosigs crypto format applicant payload quorum validators run).cosigs =
      run.cosigs ++ (validators.filterMap (contactCosig crypto format applicant payload)).take
        (quorum - run.cosigs.length) := by
  induction validators generalizing run with
  | nil => simp [collectCosigs]
  | cons entry rest ih =>
      have next := record_cosigs crypto format applicant payload run entry
      rw [collectCosigs]
      cases found : contactCosig crypto format applicant payload entry with
      | none =>
          rw [found, Option.toList_none, List.append_nil] at next
          rw [List.filterMap_cons_none found]
          split_ifs with enough
          · rw [next] at enough
            omega
          · rw [ih (by rw [next]; exact short), next]
      | some cosig =>
          rw [found, Option.toList_some] at next
          have longer := congrArg List.length next
          rw [List.length_append, List.length_singleton] at longer
          rw [List.filterMap_cons_some found]
          split_ifs with enough
          · have last : quorum - run.cosigs.length = 1 := by omega
            rw [next, last]
            rfl
          · have more : quorum - run.cosigs.length = quorum - (run.cosigs.length + 1) + 1 := by
              omega
            rw [ih (by omega), longer, next, more, List.take_succ_cons, List.append_assoc,
              List.singleton_append]

variable {crypto format applicant payload}

theorem respondToChallenge_payload {challenge : CapabilityChallenge} {now : Int}
    {evaluated : Except String (Dict String (EvalResult φ))} {response : ChallengeResponse φ}
    (answered : applicant.respondToChallenge crypto format challenge payload now evaluated =
      .ok response) : response.certPayload = payload := by
  simp only [CapabilityApplicant.respondToChallenge, Checks.bind_ok_iff, Checks.pure_ok_iff]
    at answered
  obtain ⟨_, -, _, -, _, -, results, -, made⟩ := answered
  rw [← made]

theorem verifyResponse_cosig {validator : CapabilityValidator φ} {challenge : CapabilityChallenge}
    {response : ChallengeResponse φ} {now : Int} {cosig : ValidatorCosig}
    (made : (validator.verifyResponse crypto format challenge response now).cosig = some cosig) :
    cosig.validatorPubkey = validator.pubkey ∧
      cosig.signature = validator.sign (payloadCanonicalBytes response.certPayload) := by
  rw [CapabilityValidator.verifyResponse] at made
  cases checked : cosignResponse crypto format validator challenge response now with
  | error reason =>
      rw [checked] at made
      cases made
  | ok signed =>
      rw [checked] at made
      cases made
      simp only [cosignResponse, Checks.bind_ok_iff, Checks.pure_ok_iff] at checked
      obtain ⟨_, -, _, -, _, -, _, -, _, -, _, -, _, -, _, -, _, -, _, -, same⟩ := checked
      rw [← same]
      exact ⟨rfl, rfl⟩

theorem cosig_isSome {validator : CapabilityValidator φ} {challenge : CapabilityChallenge}
    {response : ChallengeResponse φ} {now : Int}
    (accepted : (validator.verifyResponse crypto format challenge response now).accepted = true) :
    (validator.verifyResponse crypto format challenge response now).cosig.isSome = true := by
  rw [CapabilityValidator.verifyResponse] at accepted ⊢
  cases checked : cosignResponse crypto format validator challenge response now with
  | error reason =>
      rw [checked] at accepted
      cases accepted
  | ok signed => rfl

/-- A cosignature names its validator, which signed the payload that was proposed. -/
theorem contactCosig_eq {entry : CapabilityValidator φ × Visit φ} {cosig : ValidatorCosig}
    (found : contactCosig crypto format applicant payload entry = some cosig) :
    cosig.validatorPubkey = entry.1.pubkey ∧
      cosig.signature = entry.1.sign (payloadCanonicalBytes payload) := by
  rw [contactCosig] at found
  cases contacted : contactValidator crypto format applicant payload entry.1 entry.2 with
  | error error =>
      rw [contacted] at found
      cases found
  | ok outcome =>
      rw [contacted] at found
      simp only [contactValidator, Checks.bind_ok_iff, Checks.pure_ok_iff] at contacted
      obtain ⟨_, -, response, answered, _, -, verified⟩ := contacted
      obtain ⟨-, made⟩ := Option.ite_none_right_eq_some.mp found
      rw [← verified] at made
      rw [← respondToChallenge_payload answered]
      exact verifyResponse_cosig made

variable (crypto format applicant payload)

theorem map_validatorPubkey (validators : List (CapabilityValidator φ × Visit φ)) :
    (validators.filterMap (contactCosig crypto format applicant payload)).map
        ValidatorCosig.validatorPubkey =
      (validators.filter fun entry =>
        (contactCosig crypto format applicant payload entry).isSome).map (·.1.pubkey) := by
  induction validators with
  | nil => rfl
  | cons entry rest ih =>
      cases found : contactCosig crypto format applicant payload entry with
      | none => rw [List.filter_cons_of_neg (by simp [found]), List.filterMap_cons_none found, ih]
      | some cosig =>
          rw [List.filter_cons_of_pos (by simp [found]), List.filterMap_cons_some found,
            List.map_cons, List.map_cons, ih, (contactCosig_eq found).1]

end Collecting

/-! The certificate before its verifier. -/

section Certificate

variable (crypto : Crypto) (format : FloatFormat φ) (applicant : CapabilityApplicant)
  (validators : List (CapabilityValidator φ × Visit φ)) (quorumK start now : Int)

/-- A quorum that was met is a certificate that passes. -/
def CertificateStands : Prop :=
  ∀ outcome, runAttestation crypto format applicant validators quorumK start = .ok outcome →
    outcome.quorumMet = true → ∃ cert, outcome.cert = some cert ∧
      verifyAttestationCert crypto cert (some applicant.compositorPubkey) quorumK none now = .ok ()

/-- The contacts that bring the quorum. -/
def quorumContacts : List (CapabilityValidator φ × Visit φ) :=
  (validators.filter fun entry => (contactCosig crypto format applicant
    (proposedPayload applicant start) entry).isSome).take quorumK.toNat

/-- If enough contacts accept, the first of them are with different validators, and the
certificate is not expired. -/
def QuorumStands : Prop :=
  1 ≤ quorumK → quorumK ≤ (quorumContacts crypto format applicant validators quorumK start).length →
    ((quorumContacts crypto format applicant validators quorumK start).map (·.1.pubkey)).Nodup ∧
      now ≤ start + defaultCertLifetimeNs

/-- The cosignatures of the certificate, were the quorum met. -/
def firstCosigs : List ValidatorCosig :=
  (validators.filterMap (contactCosig crypto format applicant
    (proposedPayload applicant start))).take quorumK.toNat

theorem labels_firstCosigs :
    (firstCosigs crypto format applicant validators quorumK start).map
        ValidatorCosig.validatorPubkey =
      (quorumContacts crypto format applicant validators quorumK start).map (·.1.pubkey) := by
  rw [firstCosigs, List.map_take, map_validatorPubkey, quorumContacts, List.map_take]

theorem length_firstCosigs :
    (firstCosigs crypto format applicant validators quorumK start).length =
      (quorumContacts crypto format applicant validators quorumK start).length := by
  have labels := congrArg List.length
    (labels_firstCosigs crypto format applicant validators quorumK start)
  rwa [List.length_map, List.length_map] at labels

variable {quorumK}

theorem cosigs_run (positive : 1 ≤ quorumK) :
    (collectCosigs crypto format applicant (proposedPayload applicant start) quorumK validators
      ⟨[], Dict.empty⟩).cosigs = firstCosigs crypto format applicant validators quorumK start := by
  have sized : quorumK = (quorumK.toNat : Int) := (Int.toNat_of_nonneg (by omega)).symm
  have room : (⟨[], Dict.empty⟩ : QuorumCollected).cosigs.length < quorumK.toNat := by
    show 0 < quorumK.toNat
    omega
  have collected := collectCosigs_cosigs crypto format applicant (proposedPayload applicant start)
    validators room
  rw [← sized] at collected
  exact collected

variable {crypto format applicant validators start now}

theorem runAttestation_met_iff (cert : Option AttestationCert) :
    (∃ outcome, runAttestation crypto format applicant validators quorumK start = .ok outcome ∧
        outcome.quorumMet = true ∧ outcome.cert = cert) ↔
      1 ≤ quorumK ∧
        quorumK ≤ (quorumContacts crypto format applicant validators quorumK start).length ∧
        cert = some ⟨proposedPayload applicant start,
          firstCosigs crypto format applicant validators quorumK start⟩ := by
  rw [runAttestation, ← length_firstCosigs]
  constructor
  · rintro ⟨outcome, ran, met, certified⟩
    dsimp only at ran
    split_ifs at ran with small large enough
    · cases ran
      have positive : 1 ≤ quorumK := not_lt.mp small
      rw [cosigs_run _ _ _ _ _ positive] at enough certified
      exact ⟨positive, enough, certified.symm⟩
    · cases ran
      cases met
  · rintro ⟨positive, enough, rfl⟩
    have among : (firstCosigs crypto format applicant validators quorumK start).length ≤
        validators.length :=
      (List.length_take_le' _ _).trans (List.length_filterMap_le _ _)
    rw [if_neg (not_lt.mpr positive), if_neg (by omega)]
    simp only [cosigs_run _ _ _ _ _ positive, if_pos enough]
    exact ⟨_, rfl, rfl, rfl⟩

theorem verifyAttestationCert_ok_iff (cosigs : List ValidatorCosig) :
    verifyAttestationCert crypto ⟨proposedPayload applicant start, cosigs⟩
        (some applicant.compositorPubkey) quorumK none now = .ok () ↔
      now ≤ start + defaultCertLifetimeNs ∧
        quorumK ≤ countValid ValidatorCosig.validatorPubkey
          (cosigVerifies crypto (proposedPayload applicant start)) cosigs := by
  have reduced : verifyAttestationCert crypto ⟨proposedPayload applicant start, cosigs⟩
      (some applicant.compositorPubkey) quorumK none now =
        if start + defaultCertLifetimeNs < now then .error .expired
        else if (countValid ValidatorCosig.validatorPubkey
            (cosigVerifies crypto (proposedPayload applicant start)) cosigs : Int) < quorumK then
          .error (.belowQuorum (countValid ValidatorCosig.validatorPubkey
            (cosigVerifies crypto (proposedPayload applicant start)) cosigs) quorumK)
        else .ok () := by
    simp [verifyAttestationCert, checkCert, proposedPayload]
  rw [reduced]
  split_ifs with expired few
  · exact ⟨fun passed => (by cases passed), fun stands => absurd stands.1 (not_le.mpr expired)⟩
  · exact ⟨fun passed => (by cases passed), fun stands => absurd stands.2 (not_le.mpr few)⟩
  · exact ⟨fun _ => ⟨not_lt.mp expired, not_lt.mp few⟩, fun _ => rfl⟩

/-- The cosignatures of honest validators verify. -/
theorem cosigs_verify (honest : ∀ entry ∈ validators, ∀ message,
      verifyWith crypto entry.1.pubkey message (entry.1.sign message) = true) :
    ∀ cosig ∈ firstCosigs crypto format applicant validators quorumK start,
      cosigVerifies crypto (proposedPayload applicant start) cosig = true := by
  intro cosig member
  obtain ⟨entry, listed, found⟩ := List.mem_filterMap.mp (List.mem_of_mem_take member)
  obtain ⟨named, signed⟩ := contactCosig_eq found
  rw [cosigVerifies, named, signed]
  exact honest entry listed (payloadCanonicalBytes (proposedPayload applicant start))

theorem firstCosigs_pass_iff
    (enough : quorumK ≤ (quorumContacts crypto format applicant validators quorumK start).length)
    (positive : 1 ≤ quorumK) (honest : ∀ entry ∈ validators, ∀ message,
      verifyWith crypto entry.1.pubkey message (entry.1.sign message) = true) :
    verifyAttestationCert crypto ⟨proposedPayload applicant start,
        firstCosigs crypto format applicant validators quorumK start⟩
        (some applicant.compositorPubkey) quorumK none now = .ok () ↔
      ((quorumContacts crypto format applicant validators quorumK start).map (·.1.pubkey)).Nodup ∧
        now ≤ start + defaultCertLifetimeNs := by
  have most : (quorumContacts crypto format applicant validators quorumK start).length ≤
      quorumK.toNat := List.length_take_le _ _
  have sized := length_firstCosigs crypto format applicant validators quorumK start
  have verify : ∀ cosig ∈ firstCosigs crypto format applicant validators quorumK start,
      cosigVerifies crypto (proposedPayload applicant start) cosig = true := cosigs_verify honest
  have counted := Quorum.length_le_countValid_iff ValidatorCosig.validatorPubkey _ verify
  have reached : quorumK ≤ (countValid ValidatorCosig.validatorPubkey
      (cosigVerifies crypto (proposedPayload applicant start))
      (firstCosigs crypto format applicant validators quorumK start) : Int) ↔
        (firstCosigs crypto format applicant validators quorumK start).length ≤
          countValid ValidatorCosig.validatorPubkey
            (cosigVerifies crypto (proposedPayload applicant start))
            (firstCosigs crypto format applicant validators quorumK start) := by
    omega
  rw [verifyAttestationCert_ok_iff, and_comm, reached, counted, labels_firstCosigs]

theorem certificate_stands_iff (crypto : Crypto) (format : FloatFormat φ)
    (applicant : CapabilityApplicant) (validators : List (CapabilityValidator φ × Visit φ))
    (quorumK start now : Int) (honest : ∀ entry ∈ validators, ∀ message,
      verifyWith crypto entry.1.pubkey message (entry.1.sign message) = true) :
    CertificateStands crypto format applicant validators quorumK start now ↔
      QuorumStands crypto format applicant validators quorumK start now := by
  constructor
  · intro stands positive enough
    obtain ⟨outcome, ran, met, certified⟩ :=
      (runAttestation_met_iff _).mpr ⟨positive, enough, rfl⟩
    obtain ⟨cert, same, passes⟩ := stands outcome ran met
    cases certified.symm.trans same
    exact (firstCosigs_pass_iff enough positive honest).mp passes
  · intro condition outcome ran met
    obtain ⟨positive, enough, certified⟩ :=
      (runAttestation_met_iff outcome.cert).mp ⟨outcome, ran, met, rfl⟩
    exact ⟨_, certified, (firstCosigs_pass_iff enough positive honest).mpr
      (condition positive enough)⟩

end Certificate

namespace Backdated

def quorumApplicant : CapabilityApplicant where
  sign := applicant.sign
  compositorPubkey := applicant.pubkeyHex
  agentPubkey := agent.pubkeyHex

def quorumValidator (key : LocalCompositor Sample.crypto) : CapabilityValidator Int where
  sign := key.sign
  pubkey := key.pubkeyHex
  tasks := [echoTask]
  clockSkewNs := 60 * 60 * 1000000000

/-- A contact in which the applicant answers correctly. -/
def quorumVisit : Visit Int where
  challengeId := "c1"
  nonce := "n1"
  issuedAt := now
  respondedAt := now
  verifiedAt := now
  prepared := .ok ()
  evaluated := .ok (Dict.empty.set "echo_nonce" evalResult)
  checked := .ok ()

def quorumResponse : ChallengeResponse Int where
  challengeId := "c1"
  applicantCompositorPubkey := applicant.pubkeyHex
  applicantAgentPubkey := agent.pubkeyHex
  certPayload := proposedPayload quorumApplicant now
  evalResults := Dict.empty.set "echo_nonce" evalResult
  nonceEcho := "n1"
  applicantSignature := ""

def signedQuorumResponse : ChallengeResponse Int :=
  { quorumResponse with
    applicantSignature :=
      applicant.sign (responseCanonicalBytes PyNumber.wholeFormat quorumResponse) }

theorem quorumApplicant_responds (key : LocalCompositor Sample.crypto) :
    quorumApplicant.respondToChallenge Sample.crypto PyNumber.wholeFormat
      ((quorumValidator key).issueChallenge PyNumber.wholeFormat quorumVisit)
      (proposedPayload quorumApplicant now) now quorumVisit.evaluated =
        .ok signedQuorumResponse := by
  simp only [CapabilityApplicant.respondToChallenge, Checks.bind_ok_iff, Checks.demand_ok_iff,
    Checks.wrap_ok_iff, Checks.pure_ok_iff, exists_const]
  have inTime : now ≤ now + challengeValidityNs := by decide
  exact ⟨rfl, verifyWith_sign key _, inTime, _, rfl, rfl⟩

theorem quorumResponse_signed : verifyWith Sample.crypto
    signedQuorumResponse.applicantCompositorPubkey
    (responseCanonicalBytes PyNumber.wholeFormat signedQuorumResponse)
    signedQuorumResponse.applicantSignature = true := by
  have unsigned : signedQuorumResponse.toDoc = quorumResponse.toDoc :=
    quorumResponse.toDoc_signature _
  rw [responseCanonicalBytes, unsigned]
  exact verifyWith_sign applicant (responseCanonicalBytes PyNumber.wholeFormat quorumResponse)

theorem quorumResponse_checks (key : LocalCompositor Sample.crypto) :
    OutcomeChecks Sample.crypto PyNumber.wholeFormat (quorumValidator key)
      ((quorumValidator key).issueChallenge PyNumber.wholeFormat quorumVisit) signedQuorumResponse
      now where
  challengeId := rfl
  nonce := rfl
  applicant := rfl
  signed := quorumResponse_signed
  schema := rfl
  version := rfl
  skew := by
    show |now - now| ≤ (quorumValidator key).clockSkewNs
    rw [sub_self, abs_zero]
    exact Int.natCast_nonneg _
  lives := by
    show now < now + defaultCertLifetimeNs
    decide
  lifetime := by
    show now + defaultCertLifetimeNs - now ≤ maxCertLifetimeNs
    decide
  evaluated := evaluation_passes

theorem quorumValidator_accepts (key : LocalCompositor Sample.crypto) :
    (contactCosig Sample.crypto PyNumber.wholeFormat quorumApplicant
      (proposedPayload quorumApplicant now) (quorumValidator key, quorumVisit)).isSome = true := by
  have contacted : contactValidator Sample.crypto PyNumber.wholeFormat quorumApplicant
      (proposedPayload quorumApplicant now) (quorumValidator key) quorumVisit =
        .ok ((quorumValidator key).verifyResponse Sample.crypto PyNumber.wholeFormat
          ((quorumValidator key).issueChallenge PyNumber.wholeFormat quorumVisit)
          signedQuorumResponse now) := by
    simp only [contactValidator, Checks.bind_ok_iff, Checks.wrap_ok_iff, Checks.pure_ok_iff]
    exact ⟨(), rfl, _, quorumApplicant_responds key, (), rfl, rfl⟩
  have accepted := (verifyResponse_accepted_iff Sample.crypto PyNumber.wholeFormat _ _ _ _).mpr
    (quorumResponse_checks key)
  simp only [contactCosig, contacted, accepted, if_true]
  exact cosig_isSome accepted

/-- Both contacts bring a cosignature. -/
theorem quorumContacts_pair (first second : LocalCompositor Sample.crypto) :
    quorumContacts Sample.crypto PyNumber.wholeFormat quorumApplicant
      [(quorumValidator first, quorumVisit), (quorumValidator second, quorumVisit)] 2 now =
      [(quorumValidator first, quorumVisit), (quorumValidator second, quorumVisit)] := by
  have accept : ∀ entry ∈ [(quorumValidator first, quorumVisit),
      (quorumValidator second, quorumVisit)],
      (contactCosig Sample.crypto PyNumber.wholeFormat quorumApplicant
        (proposedPayload quorumApplicant now) entry).isSome = true := by
    intro entry listed
    rcases List.mem_pair.mp listed with rfl | rfl
    · exact quorumValidator_accepts first
    · exact quorumValidator_accepts second
  rw [quorumContacts, List.filter_eq_self.mpr accept]
  rfl

theorem quorumValidators_honest {first second : LocalCompositor Sample.crypto} :
    ∀ entry ∈ [(quorumValidator first, quorumVisit), (quorumValidator second, quorumVisit)],
      ∀ message, verifyWith Sample.crypto entry.1.pubkey message (entry.1.sign message) = true := by
  intro entry listed
  rcases List.mem_pair.mp listed with rfl | rfl
  · exact verifyWith_sign first
  · exact verifyWith_sign second

end Backdated

open Backdated in
theorem certificate_stands_two_keys :
    CertificateStands Sample.crypto PyNumber.wholeFormat quorumApplicant
      [(quorumValidator validatorKey, quorumVisit), (quorumValidator agent, quorumVisit)] 2 now
      now := by
  refine (certificate_stands_iff _ _ _ _ _ _ _ quorumValidators_honest).mpr ?_
  intro positive enough
  rw [quorumContacts_pair]
  refine ⟨?_, by decide⟩
  have distinct : validatorKey.pubkeyHex ≠ agent.pubkeyHex := by decide +kernel
  simpa [quorumValidator] using distinct

open Backdated in
/-- One validator, asked twice, meets a quorum of two and is counted once. -/
theorem certificate_falls_one_key :
    ¬CertificateStands Sample.crypto PyNumber.wholeFormat quorumApplicant
      [(quorumValidator validatorKey, quorumVisit), (quorumValidator validatorKey, quorumVisit)] 2
      now now := by
  intro stands
  have contacts := quorumContacts_pair validatorKey validatorKey
  have enough : (2 : Int) ≤ (quorumContacts Sample.crypto PyNumber.wholeFormat quorumApplicant
      [(quorumValidator validatorKey, quorumVisit), (quorumValidator validatorKey, quorumVisit)] 2
      now).length := by
    rw [contacts]
    decide
  obtain ⟨outcome, ran, met, certified⟩ :=
    (runAttestation_met_iff _).mpr ⟨by decide, enough, rfl⟩
  obtain ⟨cert, same, passes⟩ := stands outcome ran met
  cases certified.symm.trans same
  have distinct := ((firstCosigs_pass_iff enough (by decide) quorumValidators_honest).mp passes).1
  rw [contacts] at distinct
  simp at distinct

end Gyza

import Gyza.Attestation
import Gyza.Lib.Dict

/-! `request_tier3_attestation` of `gyza/network/attestation_adapter.py`: one proposed
body, taken to one validator after the other until enough of them have cosigned it. -/

namespace Gyza

open Hex (Bytes)
open Quorum (arrived collected)

/-- What the request reads of an advertisement. -/
structure ValidatorAd where
  compositorPubkey : String
  multiaddrs : List String

/-- What follows the first `/p2p/`. -/
def afterP2p : List Char → Option (List Char)
  | [] => none
  | c :: text =>
      if "/p2p/".toList.isPrefixOf (c :: text) then some ((c :: text).drop "/p2p/".length)
      else afterP2p text

def extractPeerIdFromMultiaddr (multiaddrs : List String) : Option String :=
  multiaddrs.findSome? fun addr =>
    (afterP2p addr.toList).map fun rest => String.ofList (rest.takeWhile (· ≠ '/'))

section Discovered

variable (n : Int) (selfCompositorPubkey : String)

def discoverLoop (seenCompositor peerIds : List String) : List ValidatorAd → List String
  | [] => peerIds
  | ad :: ads =>
      if ad.compositorPubkey = selfCompositorPubkey ∨ ad.compositorPubkey ∈ seenCompositor then
        discoverLoop seenCompositor peerIds ads
      else
        match extractPeerIdFromMultiaddr ad.multiaddrs with
        | none => discoverLoop seenCompositor peerIds ads
        | some peerId =>
            let found := peerIds ++ [peerId]
            if n ≤ found.length then found
            else discoverLoop (ad.compositorPubkey :: seenCompositor) found ads

def discoverTier3Validators (ads : List ValidatorAd) : List String :=
  discoverLoop n selfCompositorPubkey [] [] ads

end Discovered

/-- What `cap.request_attestation` raises or returns. -/
inductive PeerAnswer where
  | raised (error : String)
  | returned (success : Bool) (cosig : Option GoCoSignature) (err : String)

structure Tier3Request where
  pubkeyHex : String
  quorumK : Int
  candidateN : Int
  explicitValidatorPeerIds : Option (List String)
  attestationLifetimeNs : Int
  selfVerify : Bool

structure Tier3AttestationResult where
  cert : Option GoAttestationCert
  cosignatures : List GoCoSignature
  contactedPeerIds : List String
  perPeerErrors : Dict String String

inductive Tier3Error where
  | valueError (text : String)
  | attestationError (text : String)

/-- The `task_id` of each of `EVAL_TASKS`. -/
def evalTaskIds : List String :=
  ["count_py_files", "list_extensions", "first_line_of_data", "filename_lengths", "sum_numbers",
    "echo_nonce"]

def Tier3Request.proposedBody (request : Tier3Request) (nowNs : Int) : GoAttestationBody where
  applicantPubkey := request.pubkeyHex
  issuedAtNs := nowNs
  expiresAtNs := nowNs + request.attestationLifetimeNs
  tierGranted := issuedTier
  challengeTaskIds := evalTaskIds

/-- The candidates in the order they would be contacted. -/
def Tier3Request.candidatePeerIds (request : Tier3Request) (ads : List ValidatorAd) : List String :=
  request.explicitValidatorPeerIds.getD
    (discoverTier3Validators request.candidateN request.pubkeyHex ads)

structure QuorumProgress where
  cosigs : List GoCoSignature
  seenValidatorPubkeys : List String
  contacted : List String
  errors : Dict String String

namespace QuorumProgress

def empty : QuorumProgress := ⟨[], [], [], Dict.empty⟩

def fail (progress : QuorumProgress) (peerId error : String) : QuorumProgress :=
  { progress with errors := progress.errors.set peerId error }

def contact (progress : QuorumProgress) (peerId : String) (answer : PeerAnswer) : QuorumProgress :=
  let progress := { progress with contacted := progress.contacted ++ [peerId] }
  match answer with
  | .raised error => progress.fail peerId ("transport: " ++ error)
  | .returned false _ err => progress.fail peerId (if err = "" then "unspecified" else err)
  | .returned true none _ => progress.fail peerId "success without cosig"
  | .returned true (some cosig) _ =>
      if cosig.validatorPubkey ∈ progress.seenValidatorPubkeys then
        progress.fail peerId "duplicate validator pubkey"
      else
        { progress with
          seenValidatorPubkeys := cosig.validatorPubkey :: progress.seenValidatorPubkeys
          cosigs := progress.cosigs ++ [cosig] }

end QuorumProgress

section Request

-- `answer i` is what the candidate at position `i` answers when it is asked
variable (crypto : Crypto) (marshal : GoAttestationBody → Option Bytes) (marshalError : String)
  (answer : Nat → PeerAnswer)

def driveValidators (quorumK : Int) : Nat → List String → QuorumProgress → QuorumProgress
  | _, [], progress => progress
  | position, peerId :: rest, progress =>
      if quorumK ≤ progress.cosigs.length then progress
      else driveValidators quorumK (position + 1) rest (progress.contact peerId (answer position))

def GoCertError.text : GoCertError → String
  | .nilCert => "nil cert"
  | .tierMismatch tier => "tier " ++ toString tier ++ " != " ++ toString issuedTier
  | .issuedInFuture => "cert issued in the future"
  | .expired => "cert expired"
  | .marshalFailed => "marshal body: " ++ marshalError
  | .belowQuorum valid =>
      "only " ++ toString valid ++ " valid cosignatures, need ≥" ++ toString minCoSignatures

def GoCertError.count : GoCertError → Nat
  | .belowQuorum valid => valid
  | _ => 0

/-- The daemon's answer to `cap.verify_attestation`. -/
def verifyAttestationResult (cert : GoAttestationCert) (now : Int) : Bool × Nat × String :=
  match cert.body with
  | none => (false, 0, "nil cert/body")
  | some _ =>
      match goVerifyAttestation crypto marshal (some cert) now with
      | .ok count => (true, count, "")
      | .error error => (false, error.count, error.text marshalError)

/-- What is returned once every candidate that would be contacted has been. -/
def Tier3Request.conclude (request : Tier3Request) (nowNs verifyNow : Int)
    (progress : QuorumProgress) : Tier3AttestationResult :=
  let without : Tier3AttestationResult :=
    ⟨none, progress.cosigs, progress.contacted, progress.errors⟩
  if progress.cosigs.length < request.quorumK then without
  else
    let cert : GoAttestationCert := ⟨some (request.proposedBody nowNs), progress.cosigs.map some⟩
    let verdict := verifyAttestationResult crypto marshal marshalError cert verifyNow
    if request.selfVerify && !verdict.1 then
      { without with
        perPeerErrors := progress.errors.set "_self_verify" ("assembled cert failed self-verify: " ++
          verdict.2.2 ++ " (cosig_count=" ++ toString verdict.2.1 ++ ")") }
    else { without with cert := some cert }

def requestTier3Attestation (request : Tier3Request) (ads : List ValidatorAd)
    (nowNs verifyNow : Int) : Except Tier3Error Tier3AttestationResult :=
  let candidates := request.candidatePeerIds ads
  if request.quorumK < 1 then
    .error (.valueError ("quorum_k must be ≥ 1, got " ++ toString request.quorumK))
  else if request.candidateN < request.quorumK then
    .error (.valueError ("candidate_n (" ++ toString request.candidateN ++ ") < quorum_k (" ++
      toString request.quorumK ++ ")"))
  else if request.explicitValidatorPeerIds = none ∧ candidates.length < request.quorumK then
    .error (.attestationError ("DHT yielded " ++ toString candidates.length ++
      " Tier-3 validators, need ≥" ++ toString request.quorumK ++ " for quorum"))
  else if ¬(FitsInt64 nowNs ∧ FitsInt64 (nowNs + request.attestationLifetimeNs)) then
    .error (.valueError "Value out of range")
  else
    .ok (request.conclude crypto marshal marshalError nowNs verifyNow
      (driveValidators answer request.quorumK 0 candidates QuorumProgress.empty))

end Request

/-! The candidates' answers as votes: the cosignature each of them offers. -/

def PeerAnswer.offer : PeerAnswer → Option GoCoSignature
  | .returned true cosig _ => cosig
  | .returned false _ _ => none
  | .raised _ => none

section Driven

variable {answer : Nat → PeerAnswer} {quorum position : Nat} {progress : QuorumProgress}

/-- What holds when the candidates below a position have been contacted. -/
structure Collects (answer : Nat → PeerAnswer) (quorum position : Nat) (progress : QuorumProgress) :
    Prop where
  cosigs : progress.cosigs = collected GoCoSignature.validatorPubkey quorum
    (fun i => (answer i).offer) position
  seen : ∀ name, name ∈ progress.seenValidatorPubkeys ↔
    name ∈ progress.cosigs.map GoCoSignature.validatorPubkey

theorem Collects.of_none (collects : Collects answer quorum position progress)
    (missing : (answer position).offer = none) {next : QuorumProgress}
    (cosigs : next.cosigs = progress.cosigs)
    (seen : next.seenValidatorPubkeys = progress.seenValidatorPubkeys) :
    Collects answer quorum (position + 1) next := by
  constructor
  · rw [cosigs, collects.cosigs, collected, missing, Option.elim_none]
  · rw [cosigs, seen]
    exact collects.seen

theorem Collects.contact (collects : Collects answer quorum position progress)
    (room : progress.cosigs.length < quorum) (peerId : String) :
    Collects answer quorum (position + 1) (progress.contact peerId (answer position)) := by
  cases answered : answer position with
  | raised error => exact collects.of_none (by rw [answered]; rfl) rfl rfl
  | returned success cosig err =>
      cases success with
      | false => exact collects.of_none (by rw [answered]; rfl) rfl rfl
      | true =>
          cases cosig with
          | none => exact collects.of_none (by rw [answered]; rfl) rfl rfl
          | some cosig =>
              have offered : (answer position).offer = some cosig := by rw [answered]; rfl
              have gathered : collected GoCoSignature.validatorPubkey quorum
                  (fun i => (answer i).offer) (position + 1) =
                    Quorum.collect GoCoSignature.validatorPubkey quorum progress.cosigs cosig := by
                rw [collected, offered, Option.elim_some, collects.cosigs]
              by_cases dup : cosig.validatorPubkey ∈ progress.seenValidatorPubkeys
              · have kept := (collects.seen _).mp dup
                rw [Quorum.collect, if_neg (not_le.mpr room), if_pos kept] at gathered
                simp only [QuorumProgress.contact, if_pos dup]
                exact ⟨gathered.symm, collects.seen⟩
              · have unkept := fun kept => dup ((collects.seen _).mpr kept)
                rw [Quorum.collect, if_neg (not_le.mpr room), if_neg unkept] at gathered
                simp only [QuorumProgress.contact, if_neg dup]
                refine ⟨gathered.symm, fun name => ?_⟩
                rw [List.mem_cons, List.map_append, List.mem_append, collects.seen]
                simp [or_comm]

theorem collected_of_full {offer : Nat → Option GoCoSignature}
    (full : quorum ≤ (collected GoCoSignature.validatorPubkey quorum offer position).length)
    (more : Nat) :
    collected GoCoSignature.validatorPubkey quorum offer (position + more) =
      collected GoCoSignature.validatorPubkey quorum offer position := by
  induction more with
  | zero => rfl
  | succ more ih =>
      rw [← Nat.add_assoc, collected, ih]
      cases offer (position + more) with
      | none => rfl
      | some cosig => exact Quorum.collect_of_full _ _ full cosig

theorem cosigs_driveValidators {quorumK : Int} (sized : quorumK = quorum)
    (collects : Collects answer quorum position progress) (peerIds : List String) :
    (driveValidators answer quorumK position peerIds progress).cosigs =
      collected GoCoSignature.validatorPubkey quorum (fun i => (answer i).offer)
        (position + peerIds.length) := by
  induction peerIds generalizing position progress with
  | nil => exact collects.cosigs
  | cons peerId rest ih =>
      unfold driveValidators
      split_ifs with full
      · have full' : quorum ≤ progress.cosigs.length := by omega
        rw [collects.cosigs] at full'
        rw [collected_of_full full', collects.cosigs]
      · have room : progress.cosigs.length < quorum := by omega
        rw [ih (collects.contact room peerId), List.length_cons, Nat.add_right_comm, Nat.add_assoc]

theorem collects_empty : Collects answer quorum 0 QuorumProgress.empty :=
  ⟨rfl, fun _ => Iff.rfl⟩

end Driven

section Attested

variable (crypto : Crypto) (marshal : GoAttestationBody → Option Bytes) (marshalError : String)
  (answer : Nat → PeerAnswer)

/-- At least `quorum` validators with different keys would cosign validly. -/
def HonestQuorum (bodyBytes : Bytes) (candidates : Nat) (quorum : Int) : Prop :=
  ∃ honest : List GoCoSignature,
    (honest.map fun cosig => decodePubkey cosig.validatorPubkey).Nodup ∧ quorum ≤ honest.length ∧
      ∀ cosig ∈ honest, goCosigVerifies crypto bodyBytes cosig = true ∧
        ∃ i < candidates, (answer i).offer = some cosig

/-- The candidates whose valid cosignature comes before the quorum is filled, under a
key text that no earlier candidate has used. -/
abbrev TimelyCosigner (bodyBytes : Bytes) (quorum : Nat) : Nat → Prop :=
  Quorum.Timely GoCoSignature.validatorPubkey (goCosigVerifies crypto bodyBytes) quorum
    (fun i => (answer i).offer)

/-- The request gives a certificate that passes the verification. -/
def Attested (outcome : Except Tier3Error Tier3AttestationResult) (now : Int) : Prop :=
  ∃ result cert, outcome = .ok result ∧ result.cert = some cert ∧
    ∃ valid, goVerifyAttestation crypto marshal (some cert) now = .ok valid

variable {crypto marshal answer} {bodyBytes : Bytes}

theorem HonestQuorum.arrived {candidates : Nat} {quorum : Int}
    (honest : HonestQuorum crypto answer bodyBytes candidates quorum) :
    quorum ≤ (arrived GoCoSignature.validatorPubkey (fun i => (answer i).offer) candidates).card := by
  rcases honest with ⟨cosigs, distinct, enough, valid⟩
  have distinctTexts : (cosigs.map GoCoSignature.validatorPubkey).Nodup := by
    apply List.Nodup.of_map decodePubkey
    rw [List.map_map]
    exact distinct
  have inside : (cosigs.map GoCoSignature.validatorPubkey).toFinset ⊆
      Quorum.arrived GoCoSignature.validatorPubkey (fun i => (answer i).offer) candidates := by
    intro name member
    rcases List.mem_map.mp (List.mem_toFinset.mp member) with ⟨cosig, held, named⟩
    rcases (valid cosig held).2 with ⟨i, below, offered⟩
    exact Quorum.mem_arrived.mpr ⟨i, below, cosig, offered, named⟩
  have card := Finset.card_le_card inside
  rw [List.toFinset_card_of_nodup distinctTexts, List.length_map] at card
  omega

theorem goVerifyAttestation_passes_iff {body : GoAttestationBody}
    (marshals : marshal body = some bodyBytes) {cosigs : List GoCoSignature} (distinct : (cosigs.map GoCoSignature.validatorPubkey).Nodup)
    (now : Int) :
    (∃ valid, goVerifyAttestation crypto marshal (some ⟨some body, cosigs.map some⟩) now =
        .ok valid) ↔
      body.tierGranted = issuedTier ∧ body.issuedAtNs ≤ now ∧ now < body.expiresAtNs ∧
        minCoSignatures ≤ cosigs.countP (goCosigVerifies crypto bodyBytes) := by
  have items : (cosigs.map some).filterMap id = cosigs := by
    rw [List.filterMap_map, Function.id_comp, List.filterMap_some]
  simp only [goVerifyAttestation, marshals, items, Quorum.countValid_of_nodup _ distinct]
  split_ifs with tier early late few
  · simp [tier]
  · simp [early]
  · simp [late]
  · simp [not_le.mpr few]
  · simp [not_not.mp tier, not_lt.mp early, not_le.mp late, not_lt.mp few]

theorem verifyAttestationResult_valid_iff (body : GoAttestationBody) (cosigs : List GoCoSignature)
    (now : Int) :
    (verifyAttestationResult crypto marshal marshalError ⟨some body, cosigs.map some⟩ now).1 = true ↔
      ∃ valid, goVerifyAttestation crypto marshal (some ⟨some body, cosigs.map some⟩) now =
        .ok valid := by
  unfold verifyAttestationResult
  dsimp only
  split <;> simp_all

variable (request : Tier3Request) (nowNs verifyNow : Int)

theorem conclude_cert_iff (selfVerifies : request.selfVerify = true) {progress : QuorumProgress}
    (enough : request.quorumK ≤ progress.cosigs.length) :
    (∃ cert, (request.conclude crypto marshal marshalError nowNs verifyNow progress).cert =
        some cert ∧ ∃ valid, goVerifyAttestation crypto marshal (some cert) verifyNow = .ok valid) ↔
      ∃ valid, goVerifyAttestation crypto marshal
        (some ⟨some (request.proposedBody nowNs), progress.cosigs.map some⟩) verifyNow =
          .ok valid := by
  rw [← verifyAttestationResult_valid_iff marshalError]
  unfold Tier3Request.conclude
  rw [if_neg (not_lt.mpr enough)]
  dsimp only
  cases verdict : (verifyAttestationResult crypto marshal marshalError
      ⟨some (request.proposedBody nowNs), progress.cosigs.map some⟩ verifyNow).1 with
  | false => simp [selfVerifies]
  | true =>
      rw [verifyAttestationResult_valid_iff] at verdict
      simp [verdict]

theorem not_attested_error (error : Tier3Error) (now : Int) :
    ¬Attested crypto marshal (.error error) now := by
  rintro ⟨result, cert, failed, -⟩
  cases failed

/-- Among candidates that hold an honest quorum, the request gives a certificate that
passes exactly when its parameters are in range, it is verified while the body lives,
and enough of the valid cosignatures are timely. -/
theorem attested_iff (ads : List ValidatorAd) (selfVerifies : request.selfVerify = true)
    (marshals : marshal (request.proposedBody nowNs) = some bodyBytes)
    (honest : HonestQuorum crypto answer bodyBytes (request.candidatePeerIds ads).length
      request.quorumK) :
    Attested crypto marshal
        (requestTier3Attestation crypto marshal marshalError answer request ads nowNs verifyNow)
        verifyNow ↔
      1 ≤ request.quorumK ∧ request.quorumK ≤ request.candidateN ∧ FitsInt64 nowNs ∧
        FitsInt64 (nowNs + request.attestationLifetimeNs) ∧ nowNs ≤ verifyNow ∧
        verifyNow < nowNs + request.attestationLifetimeNs ∧
        minCoSignatures ≤ ((Finset.range (request.candidatePeerIds ads).length).filter
          (TimelyCosigner crypto answer bodyBytes request.quorumK.toNat)).card := by
  have arrived := honest.arrived
  have listed : ¬(request.explicitValidatorPeerIds = none ∧
      ((request.candidatePeerIds ads).length : Int) < request.quorumK) := by
    have atMost : (Quorum.arrived GoCoSignature.validatorPubkey (fun i => (answer i).offer)
        (request.candidatePeerIds ads).length).card ≤ _ := Quorum.card_arrived_le _
    rintro ⟨-, short⟩
    omega
  unfold requestTier3Attestation
  dsimp only
  rw [if_neg listed]
  split_ifs with small few range
  · exact iff_of_false (not_attested_error _ _) (by omega)
  · exact iff_of_false (not_attested_error _ _) (by omega)
  · have sized : request.quorumK = (request.quorumK.toNat : Int) := by omega
    have cosigs := cosigs_driveValidators sized (@collects_empty answer _)
      (request.candidatePeerIds ads)
    rw [Nat.zero_add] at cosigs
    have kept : Quorum.Kept GoCoSignature.validatorPubkey request.quorumK.toNat
        (fun i => (answer i).offer) (request.candidatePeerIds ads).length
        (driveValidators answer request.quorumK 0 (request.candidatePeerIds ads)
          QuorumProgress.empty).cosigs := by
      rw [cosigs]
      exact Quorum.kept_collected _
    have enough := kept.length
    have counted : (collected GoCoSignature.validatorPubkey request.quorumK.toNat
        (fun i => (answer i).offer) (request.candidatePeerIds ads).length).countP
          (goCosigVerifies crypto bodyBytes) = ((Finset.range _).filter (TimelyCosigner crypto answer
            bodyBytes request.quorumK.toNat)).card := Quorum.countP_collected _ _
    calc
      _ ↔ ∃ cert, (request.conclude crypto marshal marshalError nowNs verifyNow
            (driveValidators answer request.quorumK 0 (request.candidatePeerIds ads)
              QuorumProgress.empty)).cert = some cert ∧
          ∃ valid, goVerifyAttestation crypto marshal (some cert) verifyNow = .ok valid := by
        simp [Attested]
      _ ↔ _ := conclude_cert_iff marshalError request nowNs verifyNow selfVerifies (by omega)
      _ ↔ _ := goVerifyAttestation_passes_iff marshals kept.distinct verifyNow
      _ ↔ _ := by
        rw [cosigs, counted]
        constructor
        · rintro ⟨-, issued, lives, timely⟩
          exact ⟨by omega, by omega, range.1, range.2, issued, lives, timely⟩
        · rintro ⟨-, -, -, -, issued, lives, timely⟩
          exact ⟨rfl, issued, lives, timely⟩
  · refine iff_of_false (not_attested_error _ _) ?_
    rintro ⟨-, -, now, expiry, -⟩
    exact range ⟨now, expiry⟩

end Attested

/-! Three candidates: one signs nothing under its own key, two cosign. -/

namespace Sample

def tier3Request : Tier3Request where
  pubkeyHex := (compositor 1).pubkeyHex
  quorumK := 2
  candidateN := 3
  explicitValidatorPeerIds := some ["first", "second", "third"]
  attestationLifetimeNs := 1000
  selfVerify := true

def proposedBytes : Bytes := marshalBody (tier3Request.proposedBody 1000)

def cosigner (validator : UInt8) : PeerAnswer :=
  .returned true (some (goCosignAs (compositor validator) proposedBytes
    (compositor validator).pubkeyHex)) ""

def unsignedCosig : PeerAnswer :=
  .returned true (some ⟨(compositor 4).pubkeyHex, List.replicate 64 0, 0⟩) ""

/-- The dishonest candidate is at the given position. -/
def answers (position : Nat) (i : Nat) : PeerAnswer :=
  if i = position then unsignedCosig else if i = 1 then cosigner 2 else cosigner 3

theorem cosigner_verifies (validator : UInt8) :
    goCosigVerifies crypto proposedBytes (goCosignAs (compositor validator) proposedBytes
      (compositor validator).pubkeyHex) = true :=
  goCosignAs_verifies _ _ (Hex.decode_encode _)

theorem honest_answers {position : Nat} (first last : Nat)
    (offers : (answers position first).offer = (cosigner 2).offer)
    (offers' : (answers position last).offer = (cosigner 3).offer) (below : first < 3)
    (below' : last < 3) : HonestQuorum crypto (answers position) proposedBytes 3 2 := by
  refine ⟨[goCosignAs (compositor 2) proposedBytes (compositor 2).pubkeyHex,
    goCosignAs (compositor 3) proposedBytes (compositor 3).pubkeyHex], by decide +kernel, by decide,
    ?_⟩
  intro cosig held
  simp only [List.mem_cons, List.not_mem_nil, or_false] at held
  rcases held with rfl | rfl
  · exact ⟨cosigner_verifies 2, first, below, offers⟩
  · exact ⟨cosigner_verifies 3, last, below', offers'⟩

def attestationOutcome (position : Nat) : Except Tier3Error Tier3AttestationResult :=
  requestTier3Attestation crypto (fun body => some (marshalBody body)) "" (answers position)
    tier3Request [] 1000 1500

end Sample

/-- Asked last, the dishonest candidate is never reached. -/
theorem attested_sample :
    Attested Sample.crypto (fun body => some (Sample.marshalBody body))
      (Sample.attestationOutcome 2) 1500 := by
  apply (@attested_iff _ _ "" _ Sample.proposedBytes Sample.tier3Request 1000 1500 [] rfl rfl
    (Sample.honest_answers 1 0 rfl rfl (by decide) (by decide))).mpr
  refine ⟨by decide, by decide, by decide, by decide, by decide, by decide, ?_⟩
  decide +kernel

/-- Asked first, it takes one of the two places. -/
theorem unsigned_cosignature_blocks :
    HonestQuorum Sample.crypto (Sample.answers 0) Sample.proposedBytes 3 2 ∧
      ¬Attested Sample.crypto (fun body => some (Sample.marshalBody body))
        (Sample.attestationOutcome 0) 1500 := by
  refine ⟨Sample.honest_answers 1 2 rfl rfl (by decide) (by decide), ?_⟩
  rintro ⟨result, cert, returned, issued, -⟩
  have refused : ((Sample.attestationOutcome 0).toOption.bind
      Tier3AttestationResult.cert).isNone = true := by
    decide +kernel
  rw [returned] at refused
  simp [Except.toOption, issued] at refused

end Gyza

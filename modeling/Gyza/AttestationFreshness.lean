import Gyza.AttestationVerifier
import Gyza.PlausibleBody

/-! Freshness of certificates at the DHT: what a node stores and what it publishes
(`internal/dht/dht.go`).

Both sides compare in `int64`. The storing side adds a grace to the expiry, unless the
expiry is not positive; the publishing side subtracts the clock from it. -/

namespace Gyza

open Hex (Bytes)

def minPublishAttestationLifetime : Int := 24 * 60 * 60 * 1000000000

inductive AttestationPublishError where
  | nilCertBody
  | applicantPubkeyRequired
  | lifetimeBelowFloor (remainingNs : Int)
  | marshalFailed
  | exceedsSize (length : Nat)
  deriving DecidableEq

section Publish

variable (marshal : GoAttestationCert → Option Bytes)

/-- The key of the record and the value put there; a failed put is only recorded. -/
def publishAttestation (nowNs : Int) (cert : Option GoAttestationCert) :
    Except AttestationPublishError (Bytes × Bytes) :=
  match cert with
  | none | some ⟨none, _⟩ => .error .nilCertBody
  | some ⟨some body, coSignatures⟩ =>
      if body.applicantPubkey = "" then .error .applicantPubkeyRequired
      else if goInt64 (body.expiresAtNs - nowNs) < minPublishAttestationLifetime then
        .error (.lifetimeBelowFloor (goInt64 (body.expiresAtNs - nowNs)))
      else
        match marshal ⟨some body, coSignatures⟩ with
        | none => .error .marshalFailed
        | some value =>
            if value.length > maxBucketSize then .error (.exceedsSize value.length)
            else .ok (attestationDHTKey body.applicantPubkey, value)

/-- The certificate got past the check of its lifetime. -/
def Proceeds : Except AttestationPublishError (Bytes × Bytes) → Prop
  | .ok _ | .error .marshalFailed | .error (.exceedsSize _) => True
  | _ => False

theorem publish_proceeds_iff (nowNs : Int) (body : GoAttestationBody)
    (coSignatures : List (Option GoCoSignature)) :
    Proceeds (publishAttestation marshal nowNs (some ⟨some body, coSignatures⟩)) ↔
      body.applicantPubkey ≠ "" ∧
        minPublishAttestationLifetime ≤ goInt64 (body.expiresAtNs - nowNs) := by
  rw [publishAttestation]
  split_ifs with unnamed short
  · simp [Proceeds, unnamed]
  · simp [Proceeds, not_le.mpr short]
  · have long := not_lt.mp short
    split
    · simp [Proceeds, unnamed, long]
    · split_ifs
      · simp [Proceeds, unnamed, long]
      · simp [Proceeds, unnamed, long]

end Publish

section Store

variable (codec : RecordCodec)

/-- A record under an attestation key that decodes to the certificate. -/
structure IsAttestationRecord (key value : Bytes) (cert : GoAttestationCert) : Prop where
  size : value.length ≤ maxBucketSize
  notRelay : isRelay key = false
  attestation : isAttestation key = true
  decodes : codec.attestationCert value = some cert

theorem validate_attestation_iff {key value : Bytes} {body : GoAttestationBody}
    {coSignatures : List (Option GoCoSignature)}
    (record : IsAttestationRecord codec key value ⟨some body, coSignatures⟩) (nowNs : Int) :
    validateRecord codec nowNs key value = .ok () ↔
      body.expiresAtNs ≤ 0 ∨ nowNs ≤ goInt64 (body.expiresAtNs + attestationExpiryGrace) := by
  rw [validateRecord, if_neg (not_lt.mpr record.size), record.notRelay, record.attestation,
    record.decodes]
  simp only [Bool.false_eq_true, if_false, if_true]
  split_ifs with expired
  · simp only [false_iff]
    omega
  · simp only [true_iff]
    omega

end Store

section Exact

variable (codec : RecordCodec) (marshal : GoAttestationCert → Option Bytes) (nowNs : Int)
  (body : GoAttestationBody)

/-- Both sides decide as over the integers. -/
structure FreshnessExact (coSignatures : List (Option GoCoSignature)) (key value : Bytes) :
    Prop where
  stored : validateRecord codec nowNs key value = .ok () ↔
    nowNs ≤ body.expiresAtNs + attestationExpiryGrace
  published : Proceeds (publishAttestation marshal nowNs (some ⟨some body, coSignatures⟩)) →
    minPublishAttestationLifetime ≤ body.expiresAtNs - nowNs

/-- The grace does not carry a positive expiry past `int64`, and one that is not positive
is still within the grace. -/
def GraceFits : Prop :=
  (0 < body.expiresAtNs ∧ body.expiresAtNs + attestationExpiryGrace < 2 ^ 63) ∨
    (body.expiresAtNs ≤ 0 ∧ nowNs ≤ body.expiresAtNs + attestationExpiryGrace)

/-- The remaining lifetime is in `int64`, or wraps to less than the floor. -/
def RemainderFits : Prop :=
  -2 ^ 63 ≤ body.expiresAtNs - nowNs ∨
    body.expiresAtNs - nowNs + 2 ^ 64 < minPublishAttestationLifetime

variable {codec nowNs body}

theorem graceFits_iff (expiresFits : FitsInt64 body.expiresAtNs) (nowFits : FitsInt64 nowNs)
    (after : 0 ≤ nowNs) :
    ((body.expiresAtNs ≤ 0 ∨ nowNs ≤ goInt64 (body.expiresAtNs + attestationExpiryGrace)) ↔
      nowNs ≤ body.expiresAtNs + attestationExpiryGrace) ↔ GraceFits nowNs body := by
  unfold FitsInt64 at expiresFits nowFits
  rcases goInt64_wraps (body.expiresAtNs + attestationExpiryGrace) with ⟨turns, wrapped, low, high⟩
  rw [GraceFits]
  rw [attestationExpiryGrace] at wrapped low high ⊢
  omega

theorem remainderFits_iff (expiresFits : FitsInt64 body.expiresAtNs) (nowFits : FitsInt64 nowNs)
    (after : 0 ≤ nowNs) :
    (minPublishAttestationLifetime ≤ goInt64 (body.expiresAtNs - nowNs) →
      minPublishAttestationLifetime ≤ body.expiresAtNs - nowNs) ↔ RemainderFits nowNs body := by
  unfold FitsInt64 at expiresFits nowFits
  rcases goInt64_wraps (body.expiresAtNs - nowNs) with ⟨turns, wrapped, low, high⟩
  rw [RemainderFits, minPublishAttestationLifetime]
  omega

theorem attestation_freshness_iff (marshal : GoAttestationCert → Option Bytes)
    {coSignatures : List (Option GoCoSignature)} {key value : Bytes}
    (record : IsAttestationRecord codec key value ⟨some body, coSignatures⟩)
    (expiresFits : FitsInt64 body.expiresAtNs) (nowFits : FitsInt64 nowNs) (after : 0 ≤ nowNs) :
    FreshnessExact codec marshal nowNs body coSignatures key value ↔
      GraceFits nowNs body ∧ (body.applicantPubkey = "" ∨ RemainderFits nowNs body) := by
  rw [← graceFits_iff expiresFits nowFits after, ← remainderFits_iff expiresFits nowFits after]
  have stores := validate_attestation_iff codec record nowNs
  have proceeds := publish_proceeds_iff marshal nowNs body coSignatures
  constructor
  · intro exact
    refine ⟨stores.symm.trans exact.stored, ?_⟩
    by_cases unnamed : body.applicantPubkey = ""
    · exact Or.inl unnamed
    · exact Or.inr fun long => exact.published (proceeds.mpr ⟨unnamed, long⟩)
  · intro fits
    rcases fits with ⟨grace, publishes⟩
    refine ⟨stores.trans grace, fun proceeded => ?_⟩
    rcases proceeds.mp proceeded with ⟨named, long⟩
    rcases publishes with unnamed | remainder
    · exact absurd unnamed named
    · exact remainder long

end Exact

namespace Sample

def freshnessBody (expiresAtNs : Int) : GoAttestationBody :=
  ⟨"a1", 1700000000000000000, expiresAtNs, issuedTier, ["t"]⟩

/-- Every record decodes to the certificate, which nobody has signed. -/
def freshnessCodec (expiresAtNs : Int) : RecordCodec where
  relayList _ := none
  attestationCert _ := some ⟨some (freshnessBody expiresAtNs), []⟩
  agentBucket _ := none

theorem freshness_record (expiresAtNs : Int) :
    IsAttestationRecord (freshnessCodec expiresAtNs) (attestationDHTKey "a1") []
      ⟨some (freshnessBody expiresAtNs), []⟩ where
  size := Nat.zero_le _
  notRelay := by decide +kernel
  attestation := by decide +kernel
  decodes := rfl

/-- The end of the year 2030. -/
def lateExpiry : Int := 1924991999000000000

end Sample

theorem attestation_freshness_sample :
    FreshnessExact (Sample.freshnessCodec Sample.lateExpiry) (fun _ => some []) 1700000000000000000
      (Sample.freshnessBody Sample.lateExpiry) [] (attestationDHTKey "a1") [] := by
  have grace : GraceFits 1700000000000000000 (Sample.freshnessBody Sample.lateExpiry) :=
    Or.inl ⟨by decide, by decide⟩
  have remainder : RemainderFits 1700000000000000000 (Sample.freshnessBody Sample.lateExpiry) :=
    Or.inl (by decide)
  exact (attestation_freshness_iff (fun _ => some []) (Sample.freshness_record Sample.lateExpiry)
    (by decide) (by decide) (by decide)).mpr ⟨grace, Or.inr remainder⟩

/-- A certificate that expired in 1677 is stored, and is published. -/
theorem ancient_attestation_fresh :
    ¬FreshnessExact (Sample.freshnessCodec (-2 ^ 63)) (fun _ => some []) 1700000000000000000
        (Sample.freshnessBody (-2 ^ 63)) [] (attestationDHTKey "a1") [] ∧
      validateRecord (Sample.freshnessCodec (-2 ^ 63)) 1700000000000000000 (attestationDHTKey "a1")
        [] = .ok () ∧
      publishAttestation (fun _ => some []) 1700000000000000000
        (some ⟨some (Sample.freshnessBody (-2 ^ 63)), []⟩) = .ok (attestationDHTKey "a1", []) := by
  have accepted : validateRecord (Sample.freshnessCodec (-2 ^ 63)) 1700000000000000000
      (attestationDHTKey "a1") [] = .ok () := by decide +kernel
  have published : publishAttestation (fun _ => some []) 1700000000000000000
      (some ⟨some (Sample.freshnessBody (-2 ^ 63)), []⟩) =
        .ok (attestationDHTKey "a1", []) := by decide +kernel
  refine ⟨?_, accepted, published⟩
  intro exact
  exact absurd (exact.stored.mp accepted) (by decide)

end Gyza

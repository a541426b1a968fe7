import Gyza.Crypto
import Gyza.Lib.CanonJson
import Gyza.Lib.Quorum
import Gyza.Lib.Table

/-! Verification of Tier-3 attestation certificates, in its three implementations:
`gyza/network/capability_protocol.py`, `gyza-capability` and `internal/capability`. -/

namespace Gyza

open CanonJson (Json)
open Hex (Bytes)
open Quorum (SpelledOnce countValid)

def certSchema : String := "gyza.attestation.tier3/v1"

structure AttestationCertPayload where
  schema : String
  applicantCompositorPubkey : String
  evalVersion : String
  issuedAtNs : Int
  expiresAtNs : Int

structure ValidatorCosig where
  validatorPubkey : String
  signature : String
  cosignedAtNs : Int

structure AttestationCert where
  payload : AttestationCertPayload
  validatorCosigs : List ValidatorCosig

/-- `asdict(p)`, in declaration order. -/
def AttestationCertPayload.fields (payload : AttestationCertPayload) : List (String × Json) :=
  [("schema", .str payload.schema),
    ("applicant_compositor_pubkey", .str payload.applicantCompositorPubkey),
    ("eval_version", .str payload.evalVersion),
    ("issued_at_ns", .int payload.issuedAtNs),
    ("expires_at_ns", .int payload.expiresAtNs)]

/-- The bytes every cosignature is over. The Rust struct lists its fields in
sorted order and writes the same bytes. -/
def payloadCanonicalBytes (payload : AttestationCertPayload) : Bytes :=
  Hex.utf8 (CanonJson.dumps (.obj (CanonJson.sortKeys payload.fields)))

inductive CertError where
  | unsupportedSchema (schema : String)
  | applicantMismatch
  | expired
  | tooOld
  | belowQuorum (valid : Nat) (required : Int)
  deriving DecidableEq

/-- The checks of a certificate, up to how its age is computed and how a
cosignature is verified. -/
def checkCert (age : Int) (verifies : ValidatorCosig → Bool) (cert : AttestationCert)
    (expectedApplicantPubkey : Option String) (minQuorum : Int) (maxAgeNs : Option Int)
    (now : Int) : Except CertError Unit :=
  let valid := countValid ValidatorCosig.validatorPubkey verifies cert.validatorCosigs
  if cert.payload.schema ≠ certSchema then .error (.unsupportedSchema cert.payload.schema)
  else if expectedApplicantPubkey.any (cert.payload.applicantCompositorPubkey ≠ ·) then
    .error .applicantMismatch
  else if cert.payload.expiresAtNs < now then .error .expired
  else if maxAgeNs.any (· < age) then .error .tooOld
  else if valid < minQuorum then .error (.belowQuorum valid minQuorum)
  else .ok ()

section Verifiers

variable (crypto : Crypto)

/-! Python. -/

def verifyWith (pubkeyHex : String) (payload : Bytes) (sigHex : String) : Bool :=
  match Hex.fromhex pubkeyHex with
  | none => false
  | some pubkey =>
      if pubkey.length ≠ 32 then false
      else
        match Hex.fromhex sigHex with
        | none => false
        | some signature => crypto.ed25519Verify pubkey payload signature

def cosigVerifies (payload : AttestationCertPayload) (cosig : ValidatorCosig) : Bool :=
  verifyWith crypto cosig.validatorPubkey (payloadCanonicalBytes payload) cosig.signature

def verifyAttestationCert (cert : AttestationCert) (expectedApplicantPubkey : Option String)
    (minQuorum : Int) (maxAgeNs : Option Int) (now : Int) : Except CertError Unit :=
  checkCert (now - cert.payload.issuedAtNs) (cosigVerifies crypto cert.payload) cert
    expectedApplicantPubkey minQuorum maxAgeNs now

/-! Rust. Hexadecimal is decoded strictly, and the lengths of both the key and
the signature are checked. -/

def rustVerify (pubkey data signature : Bytes) : Bool :=
  if pubkey.length ≠ 32 then false
  else if signature.length ≠ 64 then false
  else crypto.ed25519Verify pubkey data signature

def rustCosigVerifies (payload : AttestationCertPayload) (cosig : ValidatorCosig) : Bool :=
  match Hex.decode cosig.validatorPubkey with
  | none => false
  | some pubkey =>
      match Hex.decode cosig.signature with
      | none => false
      | some signature => rustVerify crypto pubkey (payloadCanonicalBytes payload) signature

/-- `i64::saturating_sub`. -/
def saturatingSub (left right : Int) : Int := max (-2 ^ 63) (min (2 ^ 63 - 1) (left - right))

def rustVerifyAttestationCert (cert : AttestationCert) (expectedApplicantPubkey : Option String)
    (minQuorum : Nat) (maxAgeNs : Option Int) (now : Int) : Except CertError Unit :=
  checkCert (saturatingSub now cert.payload.issuedAtNs) (rustCosigVerifies crypto cert.payload) cert
    expectedApplicantPubkey minQuorum maxAgeNs now

end Verifiers

/-! Go. A message or a repeated field's item may be nil. -/

structure GoAttestationBody where
  applicantPubkey : String
  issuedAtNs : Int
  expiresAtNs : Int
  tierGranted : Int
  challengeTaskIds : List String

structure GoCoSignature where
  validatorPubkey : String
  signature : Bytes
  signedAtNs : Int

structure GoAttestationCert where
  body : Option GoAttestationBody
  coSignatures : List (Option GoCoSignature)

inductive GoCertError where
  | nilCert
  | tierMismatch (tier : Int)
  | issuedInFuture
  | expired
  | marshalFailed
  | belowQuorum (valid : Nat)
  deriving DecidableEq

def minCoSignatures : Nat := 2

def issuedTier : Int := 3

def decodePubkey (hexStr : String) : Option Bytes :=
  match Hex.decode hexStr with
  | none => none
  | some bytes => if bytes.length ≠ 32 then none else some bytes

section GoVerifier

-- `marshal` is the deterministic protobuf encoder, which fails on malformed strings
variable (crypto : Crypto) (marshal : GoAttestationBody → Option Bytes)

def goCosigVerifies (bodyBytes : Bytes) (cosig : GoCoSignature) : Bool :=
  match decodePubkey cosig.validatorPubkey with
  | none => false
  | some pubkey =>
      if cosig.signature.length ≠ 64 then false
      else crypto.ed25519Verify pubkey bodyBytes cosig.signature

def goVerifyAttestation (cert : Option GoAttestationCert) (now : Int) : Except GoCertError Nat :=
  match cert with
  | none => .error .nilCert
  | some ⟨none, _⟩ => .error .nilCert
  | some ⟨some body, coSignatures⟩ =>
      if body.tierGranted ≠ issuedTier then .error (.tierMismatch body.tierGranted)
      else if now < body.issuedAtNs then .error .issuedInFuture
      else if body.expiresAtNs ≤ now then .error .expired
      else
        match marshal body with
        | none => .error .marshalFailed
        | some bodyBytes =>
            let valid := countValid GoCoSignature.validatorPubkey
              (goCosigVerifies crypto bodyBytes) (coSignatures.filterMap id)
            if valid < minCoSignatures then .error (.belowQuorum valid) else .ok valid

end GoVerifier

/-! Whether a quorum of cosignatures is a quorum of keys. -/

section Meaning

variable {cosig : Type} (signs : cosig → Bytes → Prop)

/-- At least `quorum` different 32-byte keys have a valid cosignature in the list. -/
def SignedByKeys (cosigs : List cosig) (quorum : Int) : Prop :=
  ∃ keys : List Bytes, keys.Nodup ∧ quorum ≤ keys.length ∧
    ∀ key ∈ keys, key.length = 32 ∧ ∃ entry ∈ cosigs, signs entry key

/-- A verifier accepts a cosignature for the key its label decodes to, and for no other. -/
structure Verifies (label : cosig → String) (decode : String → Option Bytes)
    (accepts : cosig → Bool) : Prop where
  decodes : ∀ entry, accepts entry = true → (decode (label entry)).isSome = true
  meaning : ∀ entry key, accepts entry = true ∧ decode (label entry) = some key ↔
    key.length = 32 ∧ signs entry key

variable {signs} {label : cosig → String} {decode : String → Option Bytes} {accepts : cosig → Bool}

theorem signedByKeys_iff (verifies : Verifies signs label decode accepts) (cosigs : List cosig)
    (quorum : Int) :
    SignedByKeys signs cosigs quorum ↔
      Quorum.HasKeys label accepts decode cosigs quorum.toNat := by
  have sized : ∀ keys : List Bytes, quorum ≤ keys.length ↔ quorum.toNat ≤ keys.length := by
    intro keys
    omega
  have signed : ∀ key, (key.length = 32 ∧ ∃ entry ∈ cosigs, signs entry key) ↔
      ∃ entry ∈ cosigs, accepts entry = true ∧ decode (label entry) = some key := by
    intro key
    constructor
    · intro ⟨length, entry, member, holds⟩
      exact ⟨entry, member, (verifies.meaning entry key).mpr ⟨length, holds⟩⟩
    · intro ⟨entry, member, holds⟩
      rcases (verifies.meaning entry key).mp holds with ⟨length, signature⟩
      exact ⟨length, entry, member, signature⟩
  simp only [SignedByKeys, Quorum.HasKeys, sized, signed]

/-- With as many keys as were counted, no key was counted twice. -/
theorem spelledOnce_of_signed (verifies : Verifies signs label decode accepts)
    {cosigs : List cosig} (signed : SignedByKeys signs cosigs (countValid label accepts cosigs)) :
    SpelledOnce label accepts decode cosigs := by
  rw [← Quorum.counts_keys_iff (fun entry _ => verifies.decodes entry)]
  rw [signedByKeys_iff verifies, Int.toNat_natCast, Quorum.hasKeys_iff] at signed
  intro quorum met
  exact (Quorum.hasKeys_iff _ _ _ _ _).mpr (le_trans met signed)

theorem signed_of_spelledOnce (verifies : Verifies signs label decode accepts)
    {cosigs : List cosig} (once : SpelledOnce label accepts decode cosigs) {quorum : Int}
    (met : quorum ≤ countValid label accepts cosigs) : SignedByKeys signs cosigs quorum := by
  rw [signedByKeys_iff verifies]
  apply (Quorum.counts_keys_iff (fun entry _ => verifies.decodes entry)).mpr once
  omega

end Meaning

section Certificates

variable {age now : Int} {accepts : ValidatorCosig → Bool} {cert : AttestationCert}

theorem checkCert_ok {expectedApplicantPubkey : Option String} {minQuorum : Int}
    {maxAgeNs : Option Int}
    (passed : checkCert age accepts cert expectedApplicantPubkey minQuorum maxAgeNs now = .ok ()) :
    cert.payload.schema = certSchema ∧
      minQuorum ≤ countValid ValidatorCosig.validatorPubkey accepts cert.validatorCosigs := by
  simp only [checkCert] at passed
  split_ifs at passed with schema applicant fresh young enough
  exact ⟨not_not.mp schema, not_lt.mp enough⟩

/-- At its last moment, and asking for no more than it has, a certificate passes. -/
theorem checkCert_accepts (schema : cert.payload.schema = certSchema) :
    checkCert age accepts cert none
      (countValid ValidatorCosig.validatorPubkey accepts cert.validatorCosigs) none
      cert.payload.expiresAtNs = .ok () := by
  simp [checkCert, schema]

variable (crypto : Crypto)

/-- The cosignature names the key and is its signature over the payload. -/
def CosigSigns (decode : String → Option Bytes) (verify : Bytes → Bytes → Bytes → Bool)
    (payload : AttestationCertPayload) (cosig : ValidatorCosig) (key : Bytes) : Prop :=
  decode cosig.validatorPubkey = some key ∧
    ∃ signature, decode cosig.signature = some signature ∧
      verify key (payloadCanonicalBytes payload) signature = true

theorem cosigVerifies_verifies (payload : AttestationCertPayload) :
    Verifies (CosigSigns Hex.fromhex crypto.ed25519Verify payload) ValidatorCosig.validatorPubkey
      Hex.fromhex (cosigVerifies crypto payload) := by
  constructor
  · intro cosig accepted
    simp only [cosigVerifies, verifyWith] at accepted
    split at accepted
    · cases accepted
    · rename_i pubkey decoded
      rw [decoded]
      rfl
  · intro cosig key
    constructor
    · intro ⟨accepted, decoded⟩
      simp only [cosigVerifies, verifyWith, decoded] at accepted
      split_ifs at accepted with length
      split at accepted
      · cases accepted
      · rename_i signature signed
        exact ⟨not_not.mp length, decoded, signature, signed, accepted⟩
    · intro ⟨length, decoded, signature, signed, verified⟩
      refine ⟨?_, decoded⟩
      simp only [cosigVerifies, verifyWith, decoded, signed]
      rw [if_neg (not_not.mpr length)]
      exact verified

theorem rustCosigVerifies_verifies (payload : AttestationCertPayload) :
    Verifies (CosigSigns Hex.decode (rustVerify crypto) payload) ValidatorCosig.validatorPubkey
      Hex.decode (rustCosigVerifies crypto payload) := by
  constructor
  · intro cosig accepted
    simp only [rustCosigVerifies] at accepted
    split at accepted
    · cases accepted
    · rename_i pubkey decoded
      rw [decoded]
      rfl
  · intro cosig key
    constructor
    · intro ⟨accepted, decoded⟩
      simp only [rustCosigVerifies, decoded] at accepted
      split at accepted
      · cases accepted
      · rename_i signature signed
        have length : key.length = 32 := by
          simp only [rustVerify] at accepted
          split_ifs at accepted with length
          exact not_not.mp length
        exact ⟨length, decoded, signature, signed, accepted⟩
    · intro ⟨_, decoded, signature, signed, verified⟩
      refine ⟨?_, decoded⟩
      simp only [rustCosigVerifies, decoded, signed]
      exact verified

def PythonCountsKeys (cert : AttestationCert) : Prop :=
  ∀ expectedApplicantPubkey minQuorum maxAgeNs now,
    verifyAttestationCert crypto cert expectedApplicantPubkey minQuorum maxAgeNs now = .ok () →
      SignedByKeys (CosigSigns Hex.fromhex crypto.ed25519Verify cert.payload) cert.validatorCosigs
        minQuorum

def RustCountsKeys (cert : AttestationCert) : Prop :=
  ∀ (expectedApplicantPubkey : Option String) (minQuorum : Nat) (maxAgeNs : Option Int) (now : Int),
    rustVerifyAttestationCert crypto cert expectedApplicantPubkey minQuorum maxAgeNs now = .ok () →
      SignedByKeys (CosigSigns Hex.decode (rustVerify crypto) cert.payload) cert.validatorCosigs
        minQuorum

/-- What passes the checks is signed by as many keys as it was asked for, exactly
when no key is spelled in two ways. The quorum's own type matters only in that it
has every count. -/
theorem checkCert_counts_iff {quorum : Type} {toInt : quorum → Int}
    (counts : ∀ n : Nat, ∃ minQuorum, toInt minQuorum = n) {age : Int → Int}
    {signs : ValidatorCosig → Bytes → Prop} {decode : String → Option Bytes}
    (verifies : Verifies signs ValidatorCosig.validatorPubkey decode accepts) :
    (∀ expectedApplicantPubkey minQuorum maxAgeNs now,
      checkCert (age now) accepts cert expectedApplicantPubkey (toInt minQuorum) maxAgeNs now =
        .ok () → SignedByKeys signs cert.validatorCosigs (toInt minQuorum)) ↔
      cert.payload.schema ≠ certSchema ∨
        SpelledOnce ValidatorCosig.validatorPubkey accepts decode cert.validatorCosigs := by
  constructor
  · intro signed
    apply or_iff_not_imp_left.mpr
    intro schema
    rcases counts (countValid ValidatorCosig.validatorPubkey accepts cert.validatorCosigs) with
      ⟨minQuorum, reads⟩
    apply spelledOnce_of_signed verifies
    rw [← reads]
    apply signed none minQuorum none cert.payload.expiresAtNs
    rw [reads]
    exact checkCert_accepts (not_not.mp schema)
  · intro condition expected minQuorum maxAgeNs now passed
    rcases checkCert_ok passed with ⟨schema, met⟩
    rcases condition with other | once
    · exact absurd schema other
    · exact signed_of_spelledOnce verifies once met

theorem pythonCountsKeys_iff (cert : AttestationCert) :
    PythonCountsKeys crypto cert ↔ cert.payload.schema ≠ certSchema ∨
      SpelledOnce ValidatorCosig.validatorPubkey (cosigVerifies crypto cert.payload) Hex.fromhex
        cert.validatorCosigs :=
  checkCert_counts_iff (fun count => ⟨(count : Int), rfl⟩)
    (cosigVerifies_verifies crypto cert.payload)

theorem rustCountsKeys_iff (cert : AttestationCert) :
    RustCountsKeys crypto cert ↔ cert.payload.schema ≠ certSchema ∨
      SpelledOnce ValidatorCosig.validatorPubkey (rustCosigVerifies crypto cert.payload) Hex.decode
        cert.validatorCosigs :=
  checkCert_counts_iff (fun count => ⟨count, rfl⟩) (rustCosigVerifies_verifies crypto cert.payload)

end Certificates

section GoCertificates

variable (crypto : Crypto) (marshal : GoAttestationBody → Option Bytes)

def GoCosigSigns (bodyBytes : Bytes) (cosig : GoCoSignature) (key : Bytes) : Prop :=
  Hex.decode cosig.validatorPubkey = some key ∧ cosig.signature.length = 64 ∧
    crypto.ed25519Verify key bodyBytes cosig.signature = true

theorem goCosigVerifies_verifies (bodyBytes : Bytes) :
    Verifies (GoCosigSigns crypto bodyBytes) GoCoSignature.validatorPubkey Hex.decode
      (goCosigVerifies crypto bodyBytes) := by
  constructor
  · intro cosig accepted
    simp only [goCosigVerifies, decodePubkey] at accepted
    cases decoded : Hex.decode cosig.validatorPubkey with
    | none => simp [decoded] at accepted
    | some pubkey => rfl
  · intro cosig key
    constructor
    · intro ⟨accepted, decoded⟩
      simp only [goCosigVerifies, decodePubkey, decoded] at accepted
      split at accepted
      · cases accepted
      · rename_i pubkey sized
        split_ifs at sized with length
        cases sized
        split_ifs at accepted with signature
        exact ⟨not_not.mp length, decoded, not_not.mp signature, accepted⟩
    · intro ⟨length, decoded, signature, verified⟩
      refine ⟨?_, decoded⟩
      have sized : decodePubkey cosig.validatorPubkey = some key := by
        simp only [decodePubkey, decoded]
        exact if_neg (not_not.mpr length)
      simp only [goCosigVerifies, sized]
      rw [if_neg (not_not.mpr signature)]
      exact verified

/-- What succeeds names a body, and its cosignatures reach the quorum. -/
def GoCountsKeys (cert : Option GoAttestationCert) : Prop :=
  ∀ now valid, goVerifyAttestation crypto marshal cert now = .ok valid →
    ∃ body bodyBytes coSignatures, cert = some ⟨some body, coSignatures⟩ ∧
      marshal body = some bodyBytes ∧
      SignedByKeys (GoCosigSigns crypto bodyBytes) (coSignatures.filterMap id) minCoSignatures

/-- Some time is within the certificate's life, and every other check passes. -/
structure GoAcceptable (body : GoAttestationBody) (bodyBytes : Bytes) : Prop where
  tier : body.tierGranted = issuedTier
  lives : body.issuedAtNs < body.expiresAtNs
  marshals : marshal body = some bodyBytes

/-- Not all of the valid cosignatures are of one key in several spellings. -/
def NotOneKeyRespelled (bodyBytes : Bytes) (cosigs : List GoCoSignature) : Prop :=
  SpelledOnce GoCoSignature.validatorPubkey (goCosigVerifies crypto bodyBytes) Hex.decode cosigs ∨
    ∃ first ∈ cosigs, ∃ second ∈ cosigs, goCosigVerifies crypto bodyBytes first = true ∧
      goCosigVerifies crypto bodyBytes second = true ∧
        Hex.decode first.validatorPubkey ≠ Hex.decode second.validatorPubkey

variable {crypto marshal}

theorem goVerifyAttestation_ok {cert : Option GoAttestationCert} {now : Int} {valid : Nat}
    (passed : goVerifyAttestation crypto marshal cert now = .ok valid) :
    ∃ body bodyBytes coSignatures, cert = some ⟨some body, coSignatures⟩ ∧
      GoAcceptable marshal body bodyBytes ∧
      minCoSignatures ≤ countValid GoCoSignature.validatorPubkey (goCosigVerifies crypto bodyBytes)
        (coSignatures.filterMap id) := by
  unfold goVerifyAttestation at passed
  split at passed
  · cases passed
  · cases passed
  · rename_i body coSignatures
    split_ifs at passed with tier early late
    split at passed
    · cases passed
    · rename_i bodyBytes marshals
      simp only at passed
      split_ifs at passed with few
      exact ⟨body, bodyBytes, coSignatures, rfl, ⟨not_not.mp tier, by omega, marshals⟩,
        not_lt.mp few⟩

theorem goVerifyAttestation_accepts {body : GoAttestationBody} {bodyBytes : Bytes}
    {coSignatures : List (Option GoCoSignature)} (acceptable : GoAcceptable marshal body bodyBytes)
    (enough : minCoSignatures ≤ countValid GoCoSignature.validatorPubkey
      (goCosigVerifies crypto bodyBytes) (coSignatures.filterMap id)) :
    ∃ valid, goVerifyAttestation crypto marshal (some ⟨some body, coSignatures⟩) body.issuedAtNs =
      .ok valid := by
  simp only [goVerifyAttestation, acceptable.marshals]
  rw [if_neg (not_not.mpr acceptable.tier), if_neg (lt_irrefl _),
    if_neg (not_le.mpr acceptable.lives), if_neg (not_lt.mpr enough)]
  exact ⟨_, rfl⟩

variable (crypto marshal)

theorem goCountsKeys_iff (cert : Option GoAttestationCert) :
    GoCountsKeys crypto marshal cert ↔
      ∀ body bodyBytes coSignatures, cert = some ⟨some body, coSignatures⟩ →
        GoAcceptable marshal body bodyBytes →
          NotOneKeyRespelled crypto bodyBytes (coSignatures.filterMap id) := by
  have two : ∀ bodyBytes cosigs, (minCoSignatures ≤ countValid GoCoSignature.validatorPubkey
        (goCosigVerifies crypto bodyBytes) cosigs →
      SignedByKeys (GoCosigSigns crypto bodyBytes) cosigs minCoSignatures) ↔
        NotOneKeyRespelled crypto bodyBytes cosigs := by
    intro bodyBytes cosigs
    have verifies := goCosigVerifies_verifies crypto bodyBytes
    rw [signedByKeys_iff verifies]
    exact Quorum.counts_two_keys_iff (fun entry _ => verifies.decodes entry)
  constructor
  · intro counts body bodyBytes coSignatures named acceptable
    subst named
    rw [← two]
    intro enough
    rcases goVerifyAttestation_accepts acceptable enough with ⟨valid, passed⟩
    rcases counts _ valid passed with ⟨other, bytes, others, same, marshals, signed⟩
    cases same
    rw [acceptable.marshals] at marshals
    cases marshals
    exact signed
  · intro condition now valid passed
    rcases goVerifyAttestation_ok passed with
      ⟨body, bodyBytes, coSignatures, named, acceptable, enough⟩
    exact ⟨body, bodyBytes, coSignatures, named, acceptable.marshals,
      (two bodyBytes _).mpr (condition body bodyBytes coSignatures named acceptable) enough⟩

end GoCertificates

/-- When each verifier's quorum is a quorum of keys: the labels of the valid
cosignatures must not spell one key in two ways. -/
theorem quorum_counts_keys_iff (crypto : Crypto) (marshal : GoAttestationBody → Option Bytes)
    (cert : AttestationCert) (goCert : Option GoAttestationCert) :
    (PythonCountsKeys crypto cert ↔ cert.payload.schema ≠ certSchema ∨
      SpelledOnce ValidatorCosig.validatorPubkey (cosigVerifies crypto cert.payload) Hex.fromhex
        cert.validatorCosigs) ∧
    (RustCountsKeys crypto cert ↔ cert.payload.schema ≠ certSchema ∨
      SpelledOnce ValidatorCosig.validatorPubkey (rustCosigVerifies crypto cert.payload) Hex.decode
        cert.validatorCosigs) ∧
    (GoCountsKeys crypto marshal goCert ↔
      ∀ body bodyBytes coSignatures, goCert = some ⟨some body, coSignatures⟩ →
        GoAcceptable marshal body bodyBytes →
          NotOneKeyRespelled crypto bodyBytes (coSignatures.filterMap id)) :=
  ⟨pythonCountsKeys_iff crypto cert, rustCountsKeys_iff crypto cert,
    goCountsKeys_iff crypto marshal goCert⟩

/-! One key in lower and in upper case. -/

section Respelled

variable {crypto : Crypto} (validator : LocalCompositor crypto)

/-- A validator's cosignature under some spelling of its key. -/
def cosignAs (payload : AttestationCertPayload) (spelling : String) : ValidatorCosig :=
  ⟨spelling, validator.sign (payloadCanonicalBytes payload), payload.issuedAtNs⟩

def goCosignAs (bodyBytes : Bytes) (spelling : String) : GoCoSignature :=
  ⟨spelling, validator.signBytes bodyBytes, 0⟩

theorem cosignAs_verifies (payload : AttestationCertPayload) {spelling : String}
    (named : Hex.fromhex spelling = some validator.publicBytes) :
    cosigVerifies crypto payload (cosignAs validator payload spelling) = true := by
  have signs : CosigSigns Hex.fromhex crypto.ed25519Verify payload
      (cosignAs validator payload spelling) validator.publicBytes :=
    ⟨named, _, Hex.fromhex_encode _, validator.signBytes_verifies _⟩
  exact (((cosigVerifies_verifies crypto payload).meaning _ _).mpr
    ⟨validator.publicBytes_length, signs⟩).1

theorem cosignAs_rustVerifies (payload : AttestationCertPayload) {spelling : String}
    (named : Hex.decode spelling = some validator.publicBytes) :
    rustCosigVerifies crypto payload (cosignAs validator payload spelling) = true := by
  have verified : rustVerify crypto validator.publicBytes (payloadCanonicalBytes payload)
      (validator.signBytes (payloadCanonicalBytes payload)) = true := by
    rw [rustVerify, if_neg (not_not.mpr validator.publicBytes_length),
      if_neg (not_not.mpr (validator.signBytes_length _))]
    exact validator.signBytes_verifies _
  have signs : CosigSigns Hex.decode (rustVerify crypto) payload
      (cosignAs validator payload spelling) validator.publicBytes :=
    ⟨named, _, Hex.decode_encode _, verified⟩
  exact (((rustCosigVerifies_verifies crypto payload).meaning _ _).mpr
    ⟨validator.publicBytes_length, signs⟩).1

theorem goCosignAs_verifies (bodyBytes : Bytes) {spelling : String}
    (named : Hex.decode spelling = some validator.publicBytes) :
    goCosigVerifies crypto bodyBytes (goCosignAs validator bodyBytes spelling) = true := by
  have signs : GoCosigSigns crypto bodyBytes (goCosignAs validator bodyBytes spelling)
      validator.publicBytes :=
    ⟨named, validator.signBytes_length _, validator.signBytes_verifies _⟩
  exact (((goCosigVerifies_verifies crypto bodyBytes).meaning _ _).mpr
    ⟨validator.publicBytes_length, signs⟩).1

theorem respelled_not_once {cosig : Type} {label : cosig → String}
    {decode : String → Option Bytes} {accepts : cosig → Bool} {first second : cosig} {key : Bytes}
    (checked : accepts first = true) (checked' : accepts second = true)
    (reads : decode (label first) = some key) (reads' : decode (label second) = some key)
    (differ : label first ≠ label second) : ¬ SpelledOnce label accepts decode [first, second] := by
  intro once
  exact differ (once first (by simp) second (by simp) checked checked' (reads.trans reads'.symm))

end Respelled

namespace Sample

def validator : LocalCompositor crypto := compositor 0xab

def keyInUpperCase : String := String.ofList ((List.replicate 32 ['A', 'B']).flatten)

theorem fromhex_upperCase : Hex.fromhex keyInUpperCase = some validator.publicBytes := by
  decide +kernel

theorem decode_upperCase : Hex.decode keyInUpperCase = some validator.publicBytes := by
  decide +kernel

theorem spellings_differ : validator.pubkeyHex ≠ keyInUpperCase := by
  decide +kernel

def attestationPayload : AttestationCertPayload :=
  ⟨certSchema, (compositor 1).pubkeyHex, "v1", 1000, 2000⟩

def respelledCert : AttestationCert :=
  ⟨attestationPayload, [cosignAs validator attestationPayload validator.pubkeyHex,
    cosignAs validator attestationPayload keyInUpperCase]⟩

/-- A base-128 varint; ten bytes hold every 64-bit value. -/
def varint : Nat → Nat → Bytes
  | 0, _ => []
  | bytes + 1, value =>
      if value < 128 then [UInt8.ofNat value]
      else UInt8.ofNat (value % 128 + 128) :: varint bytes (value / 128)

def intField (tag : UInt8) (value : Int) : Bytes :=
  if value = 0 then [] else tag :: varint 10 (value % 2 ^ 64).toNat

def stringField (tag : UInt8) (text : String) : Bytes :=
  tag :: varint 10 (Hex.utf8 text).length ++ Hex.utf8 text

/-- The wire format of `AttestationBody`: fields in order, zero values left out. -/
def marshalBody (body : GoAttestationBody) : Bytes :=
  (if body.applicantPubkey = "" then [] else stringField 0x0a body.applicantPubkey) ++
    intField 0x10 body.issuedAtNs ++ intField 0x18 body.expiresAtNs ++
    intField 0x20 body.tierGranted ++ body.challengeTaskIds.flatMap (stringField 0x2a)

def attestationBody : GoAttestationBody := ⟨(compositor 1).pubkeyHex, 1000, 2000, issuedTier, []⟩

def goRespelledCert : GoAttestationCert :=
  ⟨some attestationBody,
    [some (goCosignAs validator (marshalBody attestationBody) validator.pubkeyHex),
      some (goCosignAs validator (marshalBody attestationBody) keyInUpperCase)]⟩

end Sample

/-- The holder of one key meets a quorum of two with each of the verifiers. -/
theorem quorum_of_one_key :
    ¬ PythonCountsKeys Sample.crypto Sample.respelledCert ∧
      ¬ RustCountsKeys Sample.crypto Sample.respelledCert ∧
      ¬ GoCountsKeys Sample.crypto (fun body => some (Sample.marshalBody body))
        (some Sample.goRespelledCert) := by
  have lower : Hex.fromhex Sample.validator.pubkeyHex = some Sample.validator.publicBytes :=
    Hex.fromhex_encode _
  have lowerStrict : Hex.decode Sample.validator.pubkeyHex = some Sample.validator.publicBytes :=
    Hex.decode_encode _
  refine ⟨?_, ?_, ?_⟩
  · rw [pythonCountsKeys_iff]
    intro condition
    rcases condition with other | once
    · exact other rfl
    · exact respelled_not_once (cosignAs_verifies _ _ lower)
        (cosignAs_verifies _ _ Sample.fromhex_upperCase) lower Sample.fromhex_upperCase
        Sample.spellings_differ once
  · rw [rustCountsKeys_iff]
    intro condition
    rcases condition with other | once
    · exact other rfl
    · exact respelled_not_once (cosignAs_rustVerifies _ _ lowerStrict)
        (cosignAs_rustVerifies _ _ Sample.decode_upperCase) lowerStrict Sample.decode_upperCase
        Sample.spellings_differ once
  · rw [goCountsKeys_iff]
    intro condition
    rcases condition Sample.attestationBody (Sample.marshalBody Sample.attestationBody) _ rfl
      ⟨rfl, by decide, rfl⟩ with once | ⟨first, member, second, member', _, _, differ⟩
    · exact respelled_not_once (goCosignAs_verifies _ _ lowerStrict)
        (goCosignAs_verifies _ _ Sample.decode_upperCase) lowerStrict Sample.decode_upperCase
        Sample.spellings_differ once
    · simp only [List.filterMap_cons, List.filterMap_nil, id, List.mem_cons, List.not_mem_nil,
        or_false] at member member'
      apply differ
      rcases member with rfl | rfl <;> rcases member' with rfl | rfl <;>
        simp only [goCosignAs, lowerStrict, Sample.decode_upperCase]

end Gyza

import Gyza.Crypto
import Gyza.Lib.CanonJson
import Gyza.Lib.Dict

/-! Agreement of independent rebuilders (`gyza/attest.py`).

Agreement is on the hash of the artifact, never on a count of signatures: one valid
attestation of other bytes for the same source ends it. Signers are told apart by the texts
of their keys. -/

namespace Gyza.Attest

open Hex (Bytes utf8)
open CanonJson (Doc FloatText)

def attestationSchema : String := "gyza.build-attestation/1"

structure BuildAttestation (φ : Type) where
  schema : String
  version : String
  sourceTreeHash : String
  artifactHash : String
  toolchain : List (String × Doc φ)
  builderId : String
  builderPubkey : String
  signature : String := ""

section Signing

variable (crypto : Crypto) {φ : Type} (floats : FloatText φ)

def BuildAttestation.payload (att : BuildAttestation φ) : Doc φ :=
  .obj [("artifact_hash", .str att.artifactHash), ("builder_id", .str att.builderId),
    ("builder_pubkey", .str att.builderPubkey), ("schema", .str att.schema),
    ("source_tree_hash", .str att.sourceTreeHash), ("toolchain", .obj att.toolchain),
    ("version", .str att.version)]

def BuildAttestation.signingBytes (att : BuildAttestation φ) : Bytes :=
  utf8 (Doc.dumps floats.repr att.payload.normal)

/-- `bytes.fromhex(att.digest())`, which is what is signed. -/
def BuildAttestation.digestBytes (att : BuildAttestation φ) : Bytes :=
  crypto.blake3 (att.signingBytes floats)

/-- `sign_attestation`: whatever key and signature it held before are replaced. -/
def signAttestation {crypto : Crypto} (att : BuildAttestation φ) (key : LocalCompositor crypto) :
    BuildAttestation φ :=
  let unsigned := { att with builderPubkey := key.pubkeyHex, signature := "" }
  { unsigned with signature := key.sign (unsigned.digestBytes crypto floats) }

inductive AttestationFault where
  | unsigned
  | unknownSchema (schema : String)
  | badSignature
  deriving DecidableEq

def verifyAttestation (att : BuildAttestation φ) : Except AttestationFault Unit :=
  if att.signature = "" then .error .unsigned
  else if att.schema ≠ attestationSchema then .error (.unknownSchema att.schema)
  else
    match Hex.fromhex att.builderPubkey, Hex.fromhex att.signature with
    | some pubkey, some sig =>
        if pubkey.length = 32 ∧ crypto.ed25519Verify pubkey (att.digestBytes crypto floats) sig then
          .ok ()
        else .error .badSignature
    | _, _ => .error .badSignature

theorem signAttestation_verifies {crypto : Crypto} {att : BuildAttestation φ}
    {key : LocalCompositor crypto} (known : att.schema = attestationSchema) :
    verifyAttestation crypto floats (signAttestation floats att key) = .ok () := by
  have pubkey : Hex.fromhex key.pubkeyHex = some key.publicBytes := Hex.fromhex_encode _
  have sig : ∀ data, Hex.fromhex (key.sign data) = some (key.signBytes data) :=
    fun _ => Hex.fromhex_encode _
  simp only [verifyAttestation, signAttestation, key.sign_ne_empty, if_false, known, ne_eq,
    not_true_eq_false, pubkey, sig, key.publicBytes_length, true_and]
  exact if_pos (key.signBytes_verifies _)

/-- The signed bytes name the version, the source and the artifact. -/
theorem digestBytes_binds (ideal : Function.Injective crypto.blake3)
    {att other : BuildAttestation φ}
    (same : att.digestBytes crypto floats = other.digestBytes crypto floats) :
    att.version = other.version ∧ att.sourceTreeHash = other.sourceTreeHash ∧
      att.artifactHash = other.artifactHash ∧ att.builderPubkey = other.builderPubkey := by
  have documents := Doc.dumps_injective floats (Hex.utf8_injective (ideal same))
  simp only [BuildAttestation.payload, Doc.normal, Doc.normalFields, Doc.sortFields,
    Doc.lastOfEach] at documents
  simp_all

end Signing

structure AttestationSet (φ : Type) where
  version : String
  sourceTreeHash : String
  threshold : Int
  attestations : List (BuildAttestation φ)

inductive Verdict where
  | noneValid
  | disagree (binaries : Nat)
  | belowThreshold (signers : Nat) (threshold : Int)
  | agreed
  deriving DecidableEq

/-- `max(by_hash.items(), key=lambda kv: len(kv[1]))`: the first of the largest. -/
def largest : List (String × Finset String) → Option (String × Finset String)
  | [] => none
  | row :: rest =>
      some (rest.foldl (fun best row => if best.2.card < row.2.card then row else best) row)

namespace AttestationSet

variable (crypto : Crypto) {φ : Type} (floats : FloatText φ) (set : AttestationSet φ)

/-- What the loop passes over is not for this source, or does not verify. -/
def counts (att : BuildAttestation φ) : Bool :=
  (verifyAttestation crypto floats att).isOk && att.version = set.version &&
    att.sourceTreeHash = set.sourceTreeHash

def byHash : Dict String (Finset String) :=
  (set.attestations.filter (set.counts crypto floats)).foldl (fun byHash att =>
    byHash.set att.artifactHash
      (insert att.builderPubkey ((byHash.lookup att.artifactHash).getD ∅))) Dict.empty

/-- The agreed hash, the number of signers of the hash with the most, and the reason. -/
def independentAgreement : Option String × Nat × Verdict :=
  match largest (set.byHash crypto floats).rows with
  | none => (none, 0, .noneValid)
  | some (artifactHash, signers) =>
      if 1 < (set.byHash crypto floats).rows.length then
        (none, signers.card, .disagree (set.byHash crypto floats).rows.length)
      else if signers.card < set.threshold then
        (none, signers.card, .belowThreshold signers.card set.threshold)
      else (some artifactHash, signers.card, .agreed)

def counted : List (BuildAttestation φ) := set.attestations.filter (set.counts crypto floats)

def signers (artifactHash : String) : Finset String :=
  (((set.counted crypto floats).filter fun att => att.artifactHash = artifactHash).map
    BuildAttestation.builderPubkey).toFinset

theorem mem_byHash {artifactHash : String} {signed : Finset String} :
    (artifactHash, signed) ∈ (set.byHash crypto floats).rows ↔
      signed = set.signers crypto floats artifactHash ∧
        ∃ att ∈ set.counted crypto floats, att.artifactHash = artifactHash := by
  rw [← Dict.lookup_eq_some, byHash, Dict.lookup_foldl_insert, ← counted]
  split_ifs with nobody
  · rw [List.filter_eq_nil_iff] at nobody
    simp_all
  · obtain ⟨att, member⟩ := List.exists_mem_of_ne_nil _ nobody
    obtain ⟨listed, same⟩ := List.mem_filter.mp member
    have attested : ∃ att ∈ set.counted crypto floats, att.artifactHash = artifactHash :=
      ⟨att, listed, of_decide_eq_true same⟩
    simp only [Option.some.injEq, attested, and_true, signers]
    exact eq_comm

theorem largest_singleton (row : String × Finset String) : largest [row] = some row := rfl

/-- A hash is agreed on when all that counts attests it and enough key texts signed it. -/
theorem independentAgreement_eq_some {artifactHash : String} {count : Nat} {verdict : Verdict}
    (agreed : set.independentAgreement crypto floats = (some artifactHash, count, verdict)) :
    (∀ att ∈ set.counted crypto floats, att.artifactHash = artifactHash) ∧
      count = (set.signers crypto floats artifactHash).card ∧ set.threshold ≤ count ∧
        (set.signers crypto floats artifactHash).Nonempty := by
  unfold independentAgreement at agreed
  cases rows : (set.byHash crypto floats).rows with
  | nil => simp [rows, largest] at agreed
  | cons row rest =>
      cases rest with
      | cons other rest =>
          simp only [rows, largest] at agreed
          rw [if_pos (by simp)] at agreed
          cases agreed
      | nil =>
          obtain ⟨held, signed⟩ := row
          simp only [rows, largest_singleton, List.length_singleton, lt_irrefl, if_false] at agreed
          split_ifs at agreed with few
          · cases agreed
          · cases agreed
            have only : ∀ other set', (other, set') ∈ (set.byHash crypto floats).rows →
                (other, set') = (artifactHash, signed) := by
              intro other set' member
              rw [rows] at member
              exact List.mem_singleton.mp member
            have own : (artifactHash, signed) ∈ (set.byHash crypto floats).rows := by
              rw [rows]
              exact List.mem_singleton_self _
            obtain ⟨rfl, att, listed, same⟩ := (set.mem_byHash crypto floats).mp own
            refine ⟨?_, rfl, not_lt.mp few, ?_⟩
            · intro other member
              have present : (other.artifactHash, set.signers crypto floats other.artifactHash) ∈
                  (set.byHash crypto floats).rows :=
                (set.mem_byHash crypto floats).mpr ⟨rfl, other, member, rfl⟩
              exact congrArg Prod.fst (only _ _ present)
            · exact ⟨att.builderPubkey, List.mem_toFinset.mpr (List.mem_map.mpr
                ⟨att, List.mem_filter.mpr ⟨listed, decide_eq_true same⟩, rfl⟩)⟩

end AttestationSet

/-! Builders of whom some are honest. -/

section Honest

variable (crypto : Crypto) {φ : Type} (floats : FloatText φ)

/-- What the holders of the honest keys signed: the digests of attestations of their own
builds, where the same source gives the same artifact. -/
structure HonestBuilders where
  keys : Finset String
  signed : String → Set Bytes
  rebuild : String → String → String
  own : ∀ key ∈ keys, ∀ digest ∈ signed key, ∃ att : BuildAttestation φ,
    att.digestBytes crypto floats = digest ∧
      att.artifactHash = rebuild att.version att.sourceTreeHash

end Honest

end Gyza.Attest

namespace Gyza.Sample

open Attest

def rebuilt : BuildAttestation Empty where
  schema := attestationSchema
  version := "1.0"
  sourceTreeHash := "ab"
  artifactHash := "cd"
  toolchain := []
  builderId := "first"
  builderPubkey := Hex.encode (List.replicate 32 1)
  signature := "00"

/-- The one message that was ever signed verifies. -/
def oneSigner : Crypto where
  blake3 := id
  ed25519Verify _ message _ := message = rebuilt.signingBytes CanonJson.noFloats

def signedOnce : Set Hex.Bytes := {rebuilt.signingBytes CanonJson.noFloats}

theorem digestBytes_oneSigner (att : BuildAttestation Empty) :
    att.digestBytes oneSigner CanonJson.noFloats = att.signingBytes CanonJson.noFloats := by
  simp only [BuildAttestation.digestBytes, oneSigner, id_eq]

theorem signedOnce_own (digest : Hex.Bytes) (signed : digest ∈ signedOnce) :
    ∃ att : BuildAttestation Empty, att.digestBytes oneSigner CanonJson.noFloats = digest ∧
      att.artifactHash = "cd" :=
  ⟨rebuilt, (digestBytes_oneSigner rebuilt).trans (Set.mem_singleton_iff.mp signed).symm, rfl⟩

theorem oneSigner_signed {pubkey message sig : Hex.Bytes}
    (verified : oneSigner.ed25519Verify pubkey message sig = true) : message ∈ signedOnce :=
  Set.mem_singleton_iff.mpr (of_decide_eq_true verified)

def honestRebuilder : HonestBuilders oneSigner CanonJson.noFloats where
  keys := {rebuilt.builderPubkey}
  signed _ := signedOnce
  rebuild _ _ := "cd"
  own _ _ := signedOnce_own

def rebuilders : AttestationSet Empty := ⟨"1.0", "ab", 1, [rebuilt]⟩

theorem rebuilders_agree :
    rebuilders.independentAgreement oneSigner CanonJson.noFloats = (some "cd", 1, .agreed) := by
  decide +kernel

end Gyza.Sample

namespace Gyza.Attest

end Gyza.Attest

import Gyza.Audit
import Gyza.Lib.Run

/-! The registry of trusted compositors (`gyza/network/trust_registry.py`).

Rows are keyed by the text of a public key, signatures are checked against the
bytes that the text decodes to. -/

namespace Gyza

open Hex (Bytes utf8)
open CanonJson (Doc)
open PyValue (Fields Value dictGet)

structure TrustedCompositor where
  pubkey : String
  firstSeenNs : Int
  lastSeenNs : Int
  peerIp : String
  gyzaVersion : String
  notes : String
  revoked : Bool := false
  revokedAtNs : Option Int := none
  revocationReason : Option String := none

/-- The table `trusted_compositors`; the cached manifests are not read here. -/
abbrev TrustRegistry := Table TrustedCompositor.pubkey

namespace TrustRegistry

inductive AddError where
  | invalidPubkeyHex (pubkey : String)
  | wrongLength (length : Nat)

def addTrustedCompositor (registry : TrustRegistry) (pubkey peerIp gyzaVersion notes : String)
    (nowNs : Int) : Except AddError TrustRegistry :=
  match Hex.fromhex pubkey with
  | none => .error (.invalidPubkeyHex pubkey)
  | some pk =>
      if pk.length ≠ 32 then .error (.wrongLength pk.length)
      else
        .ok (registry.upsert
          (fun old excluded => { excluded with pubkey := old.pubkey, firstSeenNs := old.firstSeenNs })
          (fun _ _ => rfl)
          { pubkey, firstSeenNs := nowNs, lastSeenNs := nowNs, peerIp, gyzaVersion, notes })

def isTrusted (registry : TrustRegistry) (compositorPubkey : String) : Bool :=
  match registry.get? compositorPubkey with
  | none => false
  | some row => !row.revoked

def revokeCompositor (registry : TrustRegistry) (pubkey reason : String) (nowNs : Int) :
    TrustRegistry :=
  registry.update (fun row => row.pubkey = pubkey)
    (fun row => { row with
      revoked := true, revokedAtNs := some nowNs, revocationReason := some reason })
    (fun _ => rfl)

inductive ManifestVerdict where
  | ok
  | missingCompositorPubkey
  | notTrusted (shown : String)
  | missingSignature
  | notHex
  | wrongLength
  | signatureInvalid
  /-- `_canon_bytes` raises: `ValueError`, which is answered as an invalid
  signature, or `TypeError` for a set, which is not caught. -/
  | noCanonicalBytes
  deriving DecidableEq

section Manifests

variable (crypto : Crypto) (python : Audit.Python)

/-- `_manifest_payload_hash`: the digest of the manifest without its signature. -/
def manifestPayloadHash (manifest : Fields) : Option Bytes :=
  (Audit.toDoc (.dict (manifest.filter (fun field => field.1 ≠ "signature")))).map (fun document =>
    crypto.blake3 (utf8 (Doc.dumps python.floatRepr document.normal)))

def checkManifestSignature (compositorPubkey sigHex : String) (manifest : Fields) :
    ManifestVerdict :=
  match Hex.fromhex compositorPubkey, Hex.fromhex sigHex with
  | some pkBytes, some sigBytes =>
      if pkBytes.length ≠ 32 then .wrongLength
      else
        match manifestPayloadHash crypto python manifest with
        | none => .noCanonicalBytes
        | some digest =>
            if crypto.ed25519Verify pkBytes digest sigBytes then .ok else .signatureInvalid
  | _, _ => .notHex

def verifyManifestFromTrustedCompositor (registry : TrustRegistry) (manifest : Fields) :
    ManifestVerdict :=
  match dictGet manifest "compositor_pubkey" .none with
  | .str compositorPubkey =>
      if compositorPubkey = "" then .missingCompositorPubkey
      else if registry.isTrusted compositorPubkey = false then
        .notTrusted (compositorPubkey.take 16).toString
      else
        match dictGet manifest "signature" .none with
        | .str sigHex =>
            if sigHex = "" then .missingSignature
            else checkManifestSignature crypto python compositorPubkey sigHex manifest
        | _ => .missingSignature
  | _ => .missingCompositorPubkey

end Manifests

/-- An addition writes the row of its own text. -/
theorem addTrustedCompositor_row {registry after : TrustRegistry}
    {pubkey peerIp gyzaVersion notes : String} {nowNs : Int}
    (added : addTrustedCompositor registry pubkey peerIp gyzaVersion notes nowNs = .ok after)
    {row : TrustedCompositor} (member : row ∈ after.rows) :
    row.pubkey = pubkey ∨ row ∈ registry.rows := by
  unfold addTrustedCompositor at added
  split at added
  next => cases added
  next pk _ =>
    split_ifs at added
    have same := Except.ok.inj added
    rw [← same] at member
    rcases (Table.mem_upsert _ _ _ _ _).mp member with ⟨old, _⟩ | stored
    · exact Or.inr old
    · cases found : registry.get? pubkey with
      | none =>
          rw [found] at stored
          exact Or.inl (congrArg TrustedCompositor.pubkey stored)
      | some old =>
          rw [found] at stored
          have keyed := ((Table.get?_eq_some _ _ _).mp found).2
          exact Or.inl ((congrArg TrustedCompositor.pubkey stored).trans keyed)

end TrustRegistry

end Gyza

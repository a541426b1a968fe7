import Gyza.RawAudit
import Gyza.Lib.Base64
import Gyza.Lib.Checks

/-! Evidence bundles (`gyza/evidence.py`): dictionaries of JSON values, whoever wrote them. -/

namespace Gyza

open CanonJson (Doc)
open Hex (Bytes utf8)
open PyValue (Fields Value dictGet)
open Audit (AuditError Parsed)

namespace Evidence

def bundleFormat : String := "gyza-evidence-bundle"

def bundleVersion : Int := 1

def bundleKeys : List String :=
  ["format", "version", "intent_id", "runner", "envelopes", "artifacts", "manifests"]

def bundleOptionalKeys : List String := ["closure"]

inductive ClosureFault where
  | noRecord
  | changed (count : Nat) (committed : Value)
  | doesNotVerify
  | unreadable

inductive BundleFault where
  | notJson
  | notObject
  | format (found : Value)
  | version (found : Value)
  | shape
  | noEnvelopes
  | notObjects
  | envelopeNotObject (i : Nat)
  | envelopeFields (i : Nat)
  | artifactNotBase64 (address : String)
  | closure (reason : Option ClosureFault)

/-- A `BundleError`, or any other exception. -/
inductive Failure where
  | bundleError (fault : BundleFault)
  | escaped (error : AuditError)

/-- `value == number`; `True` and `1.0` are the number 1. -/
def isNumber (value : Value) (number : Int) : Bool :=
  match hashKey value with
  | .ok (.number found) => found = number
  | _ => false

/-- `fields[key] = value`. -/
def setField (fields : Fields) (key : String) (value : Value) : Fields :=
  if fields.any (fun field => field.1 = key) then
    fields.map (fun field => if field.1 = key then (key, value) else field)
  else fields ++ [(key, value)]

/-- Canonical JSON, sorted keys; `none` is a `ValueError`. -/
def canonicalBytes (python : Audit.Python) (fields : Fields) : Option Bytes :=
  (Audit.toDoc (.dict fields)).map fun document =>
    utf8 (Doc.dumps python.floatRepr document.normal)

/-! Building a bundle. -/

structure Resolvers where
  artifact : String → Option Bytes
  manifest : String → Option Fields

/-- The first answer for an address stays. -/
def keepFirst {α : Type} (resolve : String → Option α) (held : Dict String α) (address : String) :
    Dict String α :=
  match held.lookup address, resolve address with
  | none, some found => held.set address found
  | _, _ => held

def collect {α : Type} (resolve : String → Option α) (addresses : List String) : Dict String α :=
  addresses.foldl (keepFirst resolve) Dict.empty

def createBundle (resolvers : Resolvers) (runner : Fields) (intentId : String)
    (envelopes : List ICPEnvelope) : Fields :=
  [("format", .str bundleFormat),
    ("version", .int bundleVersion),
    ("intent_id", .str intentId),
    ("runner", .dict runner),
    ("envelopes", .collection .list
      (envelopes.map (fun env => .dict (RawEnvelope.ofEnvelope env).asdict))),
    ("artifacts", .dict ((collect resolvers.artifact (envelopes.map (·.outputHash))).rows.map
      (fun row => (row.1, .str (Base64.encode row.2))))),
    ("manifests", .dict ((collect resolvers.manifest
      (envelopes.map (·.capabilityManifestHash))).rows.map (fun row => (row.1, .dict row.2))))]

def bundleToBytes (python : Audit.Python) (bundle : Fields) : Option Bytes :=
  canonicalBytes python bundle

/-! Reading one. -/

def loadBundle (python : Audit.Python) (data : Bytes) : Except Failure Fields :=
  match python.loads data with
  | .raises => .error (.escaped .loads)
  | .malformed => .error (.bundleError .notJson)
  | .document (.dict obj) =>
      if RawAudit.isText (dictGet obj "format" .none) bundleFormat = false then
        .error (.bundleError (.format (dictGet obj "format" .none)))
      else if isNumber (dictGet obj "version" .none) bundleVersion = false then
        .error (.bundleError (.version (dictGet obj "version" .none)))
      else if obj.all (fun field => field.1 ∈ bundleKeys ++ bundleOptionalKeys) = false ∨
          bundleKeys.all (fun key => (obj.lookup key).isSome) = false then
        .error (.bundleError .shape)
      else
        match dictGet obj "envelopes" .none with
        | .collection .list (_ :: _) =>
            if Audit.isDict (dictGet obj "artifacts" .none) = false ∨
                Audit.isDict (dictGet obj "manifests" .none) = false then
              .error (.bundleError .notObjects)
            else .ok obj
        | _ => .error (.bundleError .noEnvelopes)
  | .document _ => .error (.bundleError .notObject)

def envelopeItems (bundle : Fields) : Except AuditError (List Value) :=
  RawDag.iterate (dictGet bundle "envelopes" Value.emptyList)

def envelopesFrom (i : Nat) : List Value → Except BundleFault (List RawEnvelope)
  | [] => .ok []
  | .dict d :: rest =>
      match RawEnvelope.ofFields d with
      | none => .error (.envelopeFields i)
      | some env => (envelopesFrom (i + 1) rest).map (env :: ·)
  | _ :: _ => .error (.envelopeNotObject i)

def envelopesOf (bundle : Fields) : Except Failure (List RawEnvelope) := do
  let items ← Checks.wrap .escaped (envelopeItems bundle)
  Checks.wrap .bundleError (envelopesFrom 0 items)

def decodeArtifacts : Fields → Except BundleFault (List (String × Bytes))
  | [] => .ok []
  | (address, .str text) :: rest =>
      match Base64.decode text with
      | none => .error (.artifactNotBase64 address)
      | some bytes => (decodeArtifacts rest).map ((address, bytes) :: ·)
  | (address, _) :: _ => .error (.artifactNotBase64 address)

/-! The completeness claim. -/

structure ClosureStatus where
  asserted : Bool
  valid : Bool
  reason : Option ClosureFault
  count : Nat := 0

/-- `sorted(set(hashes))`. -/
def ordered (hashes : List String) : List String := sortedTexts hashes.toFinset

def rootOf (crypto : Crypto) (hashes : List String) : String :=
  crypto.hexdigest (utf8 ("\n".intercalate (ordered hashes)))

def closurePayload (crypto : Crypto) (intentId : Value) (hashes : List String) : Fields :=
  [("intent_id", intentId),
    ("count", .int (ordered hashes).length),
    ("root", .str (rootOf crypto hashes))]

section Closures

variable (crypto : Crypto) (python : Audit.Python)

/-- `_hash_of`: what is no envelope hashes to the empty text. -/
def hashOf : Value → Except AuditError String
  | .dict d =>
      match RawEnvelope.ofFields d with
      | none => .ok ""
      | some env => RawDag.computeEnvelopeHash crypto python env
  | _ => .ok ""

def hashesOf (bundle : Fields) : Except AuditError (List String) := do
  (← envelopeItems bundle).mapM (hashOf crypto python)

def intentOf (bundle : Fields) : Value := dictGet bundle "intent_id" (.str "")

/-- `sign` answers with hex text. -/
def attachClosure (bundle : Fields) (signerPubkeyHex : String) (sign : Bytes → String) :
    Except AuditError Fields := do
  let hashes ← hashesOf crypto python bundle
  let payload := closurePayload crypto (intentOf bundle) hashes
  match canonicalBytes python payload with
  | none => throw .valueError
  | some bytes =>
      pure (setField bundle "closure" (.dict (payload ++
        [("asserted_by", .str signerPubkeyHex), ("signature", .str (sign bytes))])))

/-- The signed keys, as far as the record has them. -/
def signedFields (closure : Fields) : Fields :=
  ["intent_id", "count", "root"].filterMap
    (fun key => (closure.lookup key).map (fun value => (key, value)))

/-- `c.get("asserted_by") or ""`, decoded; `none` is an exception. -/
def assertedBy (closure : Fields) : Option Bytes :=
  match dictGet closure "asserted_by" .none with
  | .str text => Hex.fromhex text
  | value => if value.truthy then none else some []

def signatureOf (closure : Fields) : Option Bytes :=
  match dictGet closure "signature" (.str "") with
  | .str text => Hex.fromhex text
  | _ => none

/-- The signature check; every exception in it makes the signature unreadable. -/
def checkSignature (closure : Fields) : Option ClosureFault :=
  match assertedBy closure, signatureOf closure, canonicalBytes python (signedFields closure) with
  | some pubkey, some sig, some bytes =>
      if pubkey.length ≠ 32 then some .unreadable
      else if crypto.ed25519Verify pubkey bytes sig then none
      else some .doesNotVerify
  | _, _, _ => some .unreadable

def verifyClosure (bundle : Fields) : Except AuditError ClosureStatus :=
  match dictGet bundle "closure" .none with
  | .dict closure => do
      let hashes ← hashesOf crypto python bundle
      let count := (ordered hashes).length
      if RawAudit.isText (dictGet closure "root" .none) (rootOf crypto hashes) = false ∨
          isNumber (dictGet closure "count" .none) count = false then
        pure ⟨true, false, some (.changed count (dictGet closure "count" .none)), count⟩
      else
        match checkSignature crypto python closure with
        | some fault => pure ⟨true, false, some fault, 0⟩
        | none => pure ⟨true, true, none, count⟩
  | _ => .ok ⟨false, false, some .noRecord, 0⟩

end Closures

/-! The verdict. -/

/-- `artifacts.get(h)` and `manifests.get(h)`. -/
def heldBy {α : Type} (held : List (String × α)) (address : Value) :
    Except AuditError (Option α) :=
  (hashKey address).map fun key =>
    match key with
    | .text text => held.lookup text
    | _ => none

/-- Only what is an object counts as a manifest. -/
def bundleResolvers (artifacts : List (String × Bytes)) (manifests : Fields) :
    RawAudit.Resolvers where
  artifact := heldBy artifacts
  manifest address := (heldBy manifests address).map fun held =>
    held.bind fun manifest =>
      match manifest with
      | .dict fields => some fields
      | _ => none

def verifyBundle (crypto : Crypto) (python : RawAudit.Python) (bundle : Fields) :
    Except Failure RawAudit.AuditReport := do
  let envelopes ← envelopesOf bundle
  let artifacts ← Checks.wrap .bundleError (decodeArtifacts (dictGet bundle "artifacts" .none).fields)
  let status ← Checks.wrap .escaped (verifyClosure crypto python.toPython bundle)
  if status.asserted = true ∧ status.valid = false then
    throw (.bundleError (.closure status.reason))
  else
    Checks.wrap .escaped (RawAudit.auditProvenance crypto python
      (bundleResolvers artifacts (dictGet bundle "manifests" .none).fields) true true envelopes)

end Evidence

end Gyza

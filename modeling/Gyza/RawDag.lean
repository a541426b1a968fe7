import Gyza.Audit

/-! Envelopes as a bundle carries them, and `verify_dag` over them.

`ICPEnvelope(**d)` checks the names of the fields and no type, so any JSON value
may stand where the annotations say `str`. -/

namespace Gyza

open CanonJson (Doc)
open Hex (Bytes utf8)
open PyValue (Fields Value dictGet)

structure RawEnvelope where
  intentId : Value
  actionId : Value
  agentPubkey : Value
  capabilityManifestHash : Value
  inputHashes : Value
  outputHash : Value
  parentEnvelopeHash : Value
  timestampNs : Value
  inferenceBackend : Value
  modelIdentifier : Value
  durationMs : Value
  tokensIn : Value
  tokensOut : Value
  schemaVersion : Value := .int 1
  signature : Value := .str ""

/-- What a dictionary key is looked up by: equal numbers of different types are one key. -/
inductive HashKey where
  | none
  | number (value : ℚ)
  | text (value : String)
  deriving DecidableEq

namespace RawEnvelope

open Float.Model (UnpackedFloat)
open Audit (AuditError toDoc)

def fieldNames : List String :=
  ["intent_id", "action_id", "agent_pubkey", "capability_manifest_hash", "input_hashes",
    "output_hash", "parent_envelope_hash", "timestamp_ns", "inference_backend", "model_identifier",
    "duration_ms", "tokens_in", "tokens_out", "schema_version", "signature"]

/-- `ICPEnvelope(**d)`; `none` is a `TypeError`. -/
def ofFields (d : Fields) : Option RawEnvelope :=
  if d.all (fun field => field.1 ∈ fieldNames) then do
    pure {
      intentId := ← d.lookup "intent_id"
      actionId := ← d.lookup "action_id"
      agentPubkey := ← d.lookup "agent_pubkey"
      capabilityManifestHash := ← d.lookup "capability_manifest_hash"
      inputHashes := ← d.lookup "input_hashes"
      outputHash := ← d.lookup "output_hash"
      parentEnvelopeHash := ← d.lookup "parent_envelope_hash"
      timestampNs := ← d.lookup "timestamp_ns"
      inferenceBackend := ← d.lookup "inference_backend"
      modelIdentifier := ← d.lookup "model_identifier"
      durationMs := ← d.lookup "duration_ms"
      tokensIn := ← d.lookup "tokens_in"
      tokensOut := ← d.lookup "tokens_out"
      schemaVersion := dictGet d "schema_version" (.int 1)
      signature := dictGet d "signature" (.str "") }
  else none

def payloadFields (env : RawEnvelope) : Fields :=
  [("intent_id", env.intentId),
    ("action_id", env.actionId),
    ("agent_pubkey", env.agentPubkey),
    ("capability_manifest_hash", env.capabilityManifestHash),
    ("input_hashes", env.inputHashes),
    ("output_hash", env.outputHash),
    ("parent_envelope_hash", env.parentEnvelopeHash),
    ("timestamp_ns", env.timestampNs),
    ("inference_backend", env.inferenceBackend),
    ("model_identifier", env.modelIdentifier),
    ("duration_ms", env.durationMs),
    ("tokens_in", env.tokensIn),
    ("tokens_out", env.tokensOut),
    ("schema_version", env.schemaVersion)]

/-- `asdict(env)`. -/
def asdict (env : RawEnvelope) : Fields := env.payloadFields ++ [("signature", env.signature)]

/-- The envelope with every field of its declared type. -/
def ofEnvelope (env : ICPEnvelope) : RawEnvelope where
  intentId := .str env.intentId
  actionId := .str env.actionId
  agentPubkey := .str env.agentPubkey
  capabilityManifestHash := .str env.capabilityManifestHash
  inputHashes := .collection .list (env.inputHashes.map .str)
  outputHash := .str env.outputHash
  parentEnvelopeHash := env.parentEnvelopeHash.elim .none .str
  timestampNs := .int env.timestampNs
  inferenceBackend := .str env.inferenceBackend
  modelIdentifier := .str env.modelIdentifier
  durationMs := .int env.durationMs
  tokensIn := .int env.tokensIn
  tokensOut := .int env.tokensOut
  schemaVersion := .int env.schemaVersion
  signature := .str env.signature

end RawEnvelope

/-- The exact value of a finite float. -/
def floatValue (value : Float) : ℚ :=
  match value.toModel.unpack with
  | .finite sign mantissa exponent _ => (sign.apply mantissa : ℚ) * 2 ^ exponent
  | _ => 0

/-- Lists and dictionaries are not hashable. -/
def hashKey : Value → Except Audit.AuditError HashKey
  | .none => .ok .none
  | .bool value => .ok (.number (if value then 1 else 0))
  | .int value => .ok (.number value)
  | .float value => .ok (.number (floatValue value))
  | .str text => .ok (.text text)
  | .collection _ _ => .error .typeError
  | .dict _ => .error .typeError

structure RawDagVerification where
  valid : Bool
  reason : String
  topoOrder : List RawEnvelope
  roots : List String
  leaves : List String

namespace RawDag

open RawEnvelope
open Audit (AuditError toDoc)

section Verification

variable (crypto : Crypto) (python : Audit.Python)

/-- `_payload_bytes`: a float that is not finite has no text. -/
def payloadBytes (env : RawEnvelope) : Except AuditError Bytes :=
  match toDoc (.dict env.payloadFields) with
  | none => .error .valueError
  | some document => .ok (utf8 (Doc.dumps python.floatRepr document.normal))

def computeEnvelopeHash (env : RawEnvelope) : Except AuditError String :=
  (payloadBytes python env).map crypto.hexdigest

/-- `bytes.fromhex` of a field, which must be a text. -/
def fromhexField : Value → Except AuditError (Option Bytes)
  | .str text => .ok (Hex.fromhex text)
  | _ => .error .typeError

def verifyEnvelope (env : RawEnvelope) (pubkey : Bytes) : Except AuditError Bool :=
  if env.signature.truthy = false then .ok false
  else do
    match ← fromhexField env.signature with
    | none => pure false
    | some sig => do
        let payload ← payloadBytes python env
        pure (pubkey.length = 32 && crypto.ed25519Verify pubkey (crypto.blake3 payload) sig)

/-- Later envelopes of one hash replace earlier ones. -/
def byHash (envelopes : List RawEnvelope) : Except AuditError (Dict String RawEnvelope) :=
  envelopes.foldlM (fun dict env => do pure (dict.set (← computeEnvelopeHash crypto python env) env))
    Dict.empty

/-- The parent must be held; a parent that is no text is sliced for the reason. -/
def parentDefect (requireClosed : Bool) (held : Dict String RawEnvelope) (h : String) :
    Value → Except AuditError (Option String)
  | .none => .ok none
  | .str parent =>
      if requireClosed = true ∧ parent ∉ held.keys then
        .ok (some (shortHash h ++ ": spine parent " ++ shortHash parent ++
          " not held (DAG not closed — predecessor lost or altered)"))
      else .ok none
  | _ => if requireClosed then .error .typeError else .ok none

def envelopeDefect (requireClosed : Bool) (held : Dict String RawEnvelope) :
    String × RawEnvelope → Except AuditError (Option String)
  | (h, env) => do
      match ← fromhexField env.agentPubkey with
      | none => pure (some (shortHash h ++ ": pubkey not 32-byte hex"))
      | some pubkey =>
          if pubkey.length ≠ 32 then pure (some (shortHash h ++ ": pubkey not 32-byte hex"))
          else if (← verifyEnvelope crypto python env pubkey) = false then
            pure (some (shortHash h ++ ": signature invalid"))
          else if env.inputHashes.truthy = false then
            pure (some (shortHash h ++ ": input_hashes empty"))
          else parentDefect requireClosed held h env.parentEnvelopeHash

/-- The loop over `by_hash.items()`, up to the first defect. -/
def firstDefect (requireClosed : Bool) (held : Dict String RawEnvelope) :
    List (String × RawEnvelope) → Except AuditError (Option String)
  | [] => .ok none
  | row :: rest => do
      match ← envelopeDefect crypto python requireClosed held row with
      | some reason => pure (some reason)
      | none => firstDefect requireClosed held rest

end Verification

/-- `output_hash` to producing envelope hash, over the hashes in order. -/
def byOutput (held : Dict String RawEnvelope) : Except AuditError (Dict HashKey String) :=
  ((sortedHashes held.keys).filterMap (fun h => (held.lookup h).map (fun env => (h, env)))).foldlM
    (fun dict row => do pure (dict.setdefault (← hashKey row.2.outputHash) row.1)) Dict.empty

/-- `p is not None and p in by_hash`. -/
def spineParent (held : Dict String RawEnvelope) (parent : Value) :
    Except AuditError (Finset String) := do
  match ← hashKey parent with
  | .text p => pure (if p ∈ held.keys then {p} else ∅)
  | _ => pure ∅

def iterate (value : Value) : Except AuditError (List Value) :=
  value.iterate.elim (.error .typeError) .ok

def parentsOf (held : Dict String RawEnvelope) (producers : Dict HashKey String) :
    String × RawEnvelope → Except AuditError (Finset String)
  | (h, env) => do
      let spine ← spineParent held env.parentEnvelopeHash
      let inputs ← iterate env.inputHashes
      let keys ← inputs.mapM hashKey
      pure (spine ∪ ((keys.filterMap producers.lookup).filter (· ≠ h)).toFinset)

def provenanceParents (held : Dict String RawEnvelope) (producers : Dict HashKey String) :
    Except AuditError (List (String × Finset String)) :=
  held.rows.mapM (fun row => do pure (row.1, ← parentsOf held producers row))

/-- The verdict on a graph without defects. -/
def orderedDag (held : Dict String RawEnvelope) (rows : List (String × Finset String)) :
    RawDagVerification :=
  let parents := fun h => (rows.lookup h).getD ∅
  match Kahn.topoOrder held.keys parents with
  | none => ⟨false, "provenance cycle detected", [], [], []⟩
  | some order =>
      ⟨true, "ok", order.filterMap held.lookup,
        sortedHashes (held.keys.filter (fun h => parents h = ∅)),
        sortedHashes (held.keys.filter (fun h => ∀ child ∈ held.keys, h ∉ parents child))⟩

def verifyDag (crypto : Crypto) (python : Audit.Python) (requireClosed : Bool)
    (envelopes : List RawEnvelope) : Except AuditError RawDagVerification := do
  let held ← byHash crypto python envelopes
  match ← firstDefect crypto python requireClosed held held.rows with
  | some reason => pure ⟨false, reason, [], [], []⟩
  | none => do
      let producers ← byOutput held
      pure (orderedDag held (← provenanceParents held producers))

end RawDag

/-! Envelopes whose fields have their declared types. -/

section Typed

open RawEnvelope

theorem ofFields_asdict (env : RawEnvelope) : RawEnvelope.ofFields env.asdict = some env := by
  simp [ofFields, asdict, payloadFields, fieldNames, List.lookup, dictGet]

theorem itemsToDoc_str (texts : List String) :
    Audit.itemsToDoc (texts.map .str) = some (texts.map .str) := by
  induction texts with
  | nil => rfl
  | cons text rest ih => simp [Audit.itemsToDoc, Audit.toDoc, ih]

theorem normalItems_str (texts : List String) :
    Doc.normalItems (texts.map (Doc.str (φ := Float))) = texts.map .str := by
  induction texts with
  | nil => rfl
  | cons text rest ih => simp [Doc.normalItems, Doc.normal, ih]

theorem itemChars_str (repr : Float → List Char) (texts : List String) :
    Doc.itemChars repr (texts.map .str) = CanonJson.dumpItems (texts.map .str) := by
  induction texts with
  | nil => rfl
  | cons text rest ih => simp [Doc.itemChars, Doc.chars, CanonJson.dumpItems, CanonJson.dumpChars, ih]

theorem chars_texts (repr : Float → List Char) (texts : List String) :
    Doc.chars repr (.arr (texts.map .str)) = CanonJson.dumpChars (.arr (texts.map .str)) := by
  cases texts with
  | nil => rfl
  | cons text rest =>
      simp [Doc.chars, CanonJson.dumpChars, itemChars_str]

theorem sortFields_payload {α : Type} (intentId actionId agentPubkey manifestHash inputHashes
    outputHash parentHash timestampNs backend model durationMs tokensIn tokensOut schema : α) :
    Doc.sortFields [("intent_id", intentId), ("action_id", actionId), ("agent_pubkey", agentPubkey),
        ("capability_manifest_hash", manifestHash), ("input_hashes", inputHashes),
        ("output_hash", outputHash), ("parent_envelope_hash", parentHash),
        ("timestamp_ns", timestampNs), ("inference_backend", backend), ("model_identifier", model),
        ("duration_ms", durationMs), ("tokens_in", tokensIn), ("tokens_out", tokensOut),
        ("schema_version", schema)] =
      [("action_id", actionId), ("agent_pubkey", agentPubkey),
        ("capability_manifest_hash", manifestHash), ("duration_ms", durationMs),
        ("inference_backend", backend), ("input_hashes", inputHashes), ("intent_id", intentId),
        ("model_identifier", model), ("output_hash", outputHash),
        ("parent_envelope_hash", parentHash), ("schema_version", schema),
        ("timestamp_ns", timestampNs), ("tokens_in", tokensIn), ("tokens_out", tokensOut)] := by
  simp [Doc.sortFields, Doc.lastOfEach, List.insertionSort, List.orderedInsert]

theorem payloadBytes_ofEnvelope (python : Audit.Python) (env : ICPEnvelope) :
    RawDag.payloadBytes python (ofEnvelope env) = .ok env.payloadBytes := by
  have parent : ∃ document : Doc Float,
      Audit.toDoc (env.parentEnvelopeHash.elim .none .str) = some document ∧
        document.normal.chars python.floatRepr =
          CanonJson.dumpChars (env.parentEnvelopeHash.elim .null .str) := by
    cases env.parentEnvelopeHash with
    | none => exact ⟨.null, rfl, rfl⟩
    | some parent => exact ⟨.str parent, rfl, rfl⟩
  obtain ⟨document, converted, written⟩ := parent
  have inputs := chars_texts python.floatRepr env.inputHashes
  simp only [RawDag.payloadBytes, payloadFields, ofEnvelope, Audit.toDoc, Audit.fieldsToDoc,
    itemsToDoc_str, converted, Option.bind_eq_bind, Option.bind_some, Option.pure_def,
    Option.map_some, Doc.normal, Doc.normalFields, normalItems_str, sortFields_payload]
  rw [ICPEnvelope.payloadBytes, sortKeys_payloadFields, Doc.dumps, CanonJson.dumps]
  simp only [Doc.chars, Doc.fieldChars, CanonJson.dumpChars, CanonJson.dumpFields, inputs, written]

theorem computeEnvelopeHash_ofEnvelope (crypto : Crypto) (python : Audit.Python)
    (env : ICPEnvelope) :
    RawDag.computeEnvelopeHash crypto python (ofEnvelope env) =
      .ok (computeEnvelopeHash crypto env) := by
  rw [RawDag.computeEnvelopeHash, payloadBytes_ofEnvelope]
  rfl

end Typed

end Gyza

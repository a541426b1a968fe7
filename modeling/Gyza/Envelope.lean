import Gyza.Crypto
import Gyza.Lib.CanonJson

/-! Intent Chain Protocol envelopes (`gyza/icp.py`): hashing, verification, and
the linear chain. -/

namespace Gyza

open CanonJson (Json)
open Hex (Bytes utf8)

structure ICPEnvelope where
  intentId : String
  actionId : String
  agentPubkey : String
  capabilityManifestHash : String
  inputHashes : List String
  outputHash : String
  parentEnvelopeHash : Option String
  timestampNs : Int
  inferenceBackend : String
  modelIdentifier : String
  durationMs : Int
  tokensIn : Int
  tokensOut : Int
  schemaVersion : Int := 1
  signature : String := ""
  deriving DecidableEq

namespace ICPEnvelope

def payloadFields (env : ICPEnvelope) : List (String × Json) :=
  [("intent_id", .str env.intentId),
    ("action_id", .str env.actionId),
    ("agent_pubkey", .str env.agentPubkey),
    ("capability_manifest_hash", .str env.capabilityManifestHash),
    ("input_hashes", .arr (env.inputHashes.map .str)),
    ("output_hash", .str env.outputHash),
    ("parent_envelope_hash", env.parentEnvelopeHash.elim .null .str),
    ("timestamp_ns", .int env.timestampNs),
    ("inference_backend", .str env.inferenceBackend),
    ("model_identifier", .str env.modelIdentifier),
    ("duration_ms", .int env.durationMs),
    ("tokens_in", .int env.tokensIn),
    ("tokens_out", .int env.tokensOut),
    ("schema_version", .int env.schemaVersion)]

/-- Canonical JSON of every field except `signature`. -/
def payloadBytes (env : ICPEnvelope) : Bytes :=
  utf8 (CanonJson.dumps (.obj (CanonJson.sortKeys env.payloadFields)))

/-- The envelope without its signature: what the payload bytes carry. -/
def unsigned (env : ICPEnvelope) : ICPEnvelope := { env with signature := "" }

end ICPEnvelope

open ICPEnvelope

theorem sortKeys_payloadFields (env : ICPEnvelope) :
    CanonJson.sortKeys env.payloadFields =
      [("action_id", .str env.actionId),
        ("agent_pubkey", .str env.agentPubkey),
        ("capability_manifest_hash", .str env.capabilityManifestHash),
        ("duration_ms", .int env.durationMs),
        ("inference_backend", .str env.inferenceBackend),
        ("input_hashes", .arr (env.inputHashes.map .str)),
        ("intent_id", .str env.intentId),
        ("model_identifier", .str env.modelIdentifier),
        ("output_hash", .str env.outputHash),
        ("parent_envelope_hash", env.parentEnvelopeHash.elim .null .str),
        ("schema_version", .int env.schemaVersion),
        ("timestamp_ns", .int env.timestampNs),
        ("tokens_in", .int env.tokensIn),
        ("tokens_out", .int env.tokensOut)] := by
  simp [CanonJson.sortKeys, payloadFields, List.insertionSort, List.orderedInsert]

private theorem parent_injective {parent parent' : Option String}
    (same : parent.elim Json.null .str = parent'.elim Json.null .str) : parent = parent' := by
  cases parent <;> cases parent' <;> simp_all

/-- Equal payload bytes mean equal envelopes, the signature apart. -/
theorem payloadBytes_eq_iff (env other : ICPEnvelope) :
    env.payloadBytes = other.payloadBytes ↔ env.unsigned = other.unsigned := by
  constructor
  · intro same
    have documents := CanonJson.dumps_injective (Hex.utf8_injective same)
    simp only [sortKeys_payloadFields, Json.obj.injEq, List.cons.injEq, Prod.mk.injEq, true_and,
      Json.str.injEq, Json.int.injEq, Json.arr.injEq, and_true] at documents
    obtain ⟨action, agent, manifest, duration, backend, inputs, intent, model, output, parent,
      schema, timestamp, tokensIn, tokensOut⟩ := documents
    have inputsSame : env.inputHashes = other.inputHashes :=
      List.map_injective_iff.mpr (fun _ _ equal => Json.str.inj equal) inputs
    have parentSame := parent_injective parent
    simp only [unsigned, action, agent, manifest, duration, backend, inputsSame, intent, model,
      output, parentSame, schema, timestamp, tokensIn, tokensOut]
  · intro same
    have fields : env.unsigned.payloadFields = other.unsigned.payloadFields := by rw [same]
    exact congrArg (fun fields => utf8 (CanonJson.dumps (.obj (CanonJson.sortKeys fields)))) fields

/-- The fields that make up the provenance graph. -/
theorem unsigned_graph_fields {env other : ICPEnvelope} (same : env.unsigned = other.unsigned) :
    env.parentEnvelopeHash = other.parentEnvelopeHash ∧ env.inputHashes = other.inputHashes ∧
      env.outputHash = other.outputHash := by
  have parent := congrArg parentEnvelopeHash same
  have inputs := congrArg inputHashes same
  have output := congrArg outputHash same
  exact ⟨parent, inputs, output⟩

section Verification

variable (crypto : Crypto)

def computeEnvelopeHash (env : ICPEnvelope) : String := crypto.hexdigest env.payloadBytes

def verifyEnvelope (env : ICPEnvelope) (pubkey : Bytes) : Bool :=
  if env.signature = "" then false
  else
    match Hex.fromhex env.signature with
    | none => false
    | some sig =>
        pubkey.length = 32 && crypto.ed25519Verify pubkey (crypto.blake3 env.payloadBytes) sig

def pubkeyBytesOf (env : ICPEnvelope) : Option Bytes := Hex.fromhex env.agentPubkey

/-- The signature verifies under the envelope's own `agent_pubkey`. -/
def selfVerifies (env : ICPEnvelope) : Bool :=
  match pubkeyBytesOf env with
  | none => false
  | some pubkey => pubkey.length = 32 && verifyEnvelope crypto env pubkey

/-- The loop of `verify_chain` from index `i`, after the envelope `previous`. -/
def verifyChainFrom (previous : Option ICPEnvelope) (i : Nat) : List ICPEnvelope → Bool × Int
  | [] => (true, -1)
  | env :: rest =>
      match pubkeyBytesOf env with
      | none => (false, i)
      | some pubkey =>
          if pubkey.length ≠ 32 then (false, i)
          else if verifyEnvelope crypto env pubkey = false then (false, i)
          else if env.parentEnvelopeHash ≠ previous.map (computeEnvelopeHash crypto) then (false, i)
          else if env.inputHashes = [] then (false, i)
          else verifyChainFrom (some env) (i + 1) rest

def verifyChain (envelopes : List ICPEnvelope) : Bool × Int :=
  verifyChainFrom crypto none 0 envelopes

/-- A chain that continues `previous`: every envelope verifies, points at the
one before it, and has an input. -/
def ChainFrom : Option ICPEnvelope → List ICPEnvelope → Prop
  | _, [] => True
  | previous, env :: rest =>
      selfVerifies crypto env = true ∧
        env.parentEnvelopeHash = previous.map (computeEnvelopeHash crypto) ∧
        env.inputHashes ≠ [] ∧ ChainFrom (some env) rest

variable {crypto}

theorem computeEnvelopeHash_eq_iff (ideal : Function.Injective crypto.blake3)
    (env other : ICPEnvelope) :
    computeEnvelopeHash crypto env = computeEnvelopeHash crypto other ↔
      env.unsigned = other.unsigned := by
  rw [← payloadBytes_eq_iff]
  exact (crypto.hexdigest_injective ideal).eq_iff

theorem computeEnvelopeHash_unsigned (env : ICPEnvelope) :
    computeEnvelopeHash crypto env.unsigned = computeEnvelopeHash crypto env := rfl

theorem selfVerifies_unsigned (env : ICPEnvelope) : selfVerifies crypto env.unsigned = false := by
  simp only [selfVerifies, verifyEnvelope, unsigned]
  split <;> simp

/-- `sign_envelope` with the key pair of an agent. -/
def signEnvelope (key : LocalCompositor crypto) (env : ICPEnvelope) : ICPEnvelope :=
  { env with signature := key.sign (crypto.blake3 env.payloadBytes) }

theorem signEnvelope_verifies (key : LocalCompositor crypto) (env : ICPEnvelope)
    (own : env.agentPubkey = key.pubkeyHex) : selfVerifies crypto (signEnvelope key env) = true := by
  have decoded : pubkeyBytesOf (signEnvelope key env) = some key.publicBytes := by
    simp only [pubkeyBytesOf, signEnvelope, own]
    exact Hex.fromhex_encode _
  have sig : Hex.fromhex (signEnvelope key env).signature =
      some (key.signBytes (crypto.blake3 env.payloadBytes)) := Hex.fromhex_encode _
  have signed : (signEnvelope key env).signature ≠ "" := key.sign_ne_empty _
  have payload : (signEnvelope key env).payloadBytes = env.payloadBytes := rfl
  simp [selfVerifies, decoded, verifyEnvelope, signed, sig, payload, key.publicBytes_length,
    key.signBytes_verifies]

theorem verifyChainFrom_accepts (previous : Option ICPEnvelope) (i : Nat)
    (envelopes : List ICPEnvelope) :
    verifyChainFrom crypto previous i envelopes = (true, -1) ↔
      ChainFrom crypto previous envelopes := by
  induction envelopes generalizing previous i with
  | nil => simp [verifyChainFrom, ChainFrom]
  | cons env rest ih =>
      simp only [verifyChainFrom, ChainFrom, selfVerifies, ← ih (some env) (i + 1)]
      cases decoded : pubkeyBytesOf env with
      | none => simp
      | some pubkey =>
          by_cases length : pubkey.length = 32
          · by_cases verified : verifyEnvelope crypto env pubkey = true
            · by_cases linked : env.parentEnvelopeHash = previous.map (computeEnvelopeHash crypto)
              · by_cases empty : env.inputHashes = [] <;> simp [length, verified, linked, empty]
              · simp [length, verified, linked]
            · simp [length, verified]
          · simp [length]

theorem verifyChain_accepts (envelopes : List ICPEnvelope) :
    verifyChain crypto envelopes = (true, -1) ↔ ChainFrom crypto none envelopes :=
  verifyChainFrom_accepts none 0 envelopes

end Verification

/-- A signed envelope of the sample agent. -/
def Sample.envelope (inputs : List String) (output : String) (parent : Option String) :
    ICPEnvelope :=
  signEnvelope (Sample.compositor 1) {
    intentId := "intent-1"
    actionId := "action-1"
    agentPubkey := (Sample.compositor 1).pubkeyHex
    capabilityManifestHash := "m1"
    inputHashes := inputs
    outputHash := output
    parentEnvelopeHash := parent
    timestampNs := 1000
    inferenceBackend := "mock"
    modelIdentifier := "mock"
    durationMs := 5
    tokensIn := 3
    tokensOut := 4 }

theorem Sample.envelope_verifies (inputs : List String) (output : String) (parent : Option String) :
    selfVerifies Sample.crypto (Sample.envelope inputs output parent) = true :=
  signEnvelope_verifies _ _ rfl

end Gyza

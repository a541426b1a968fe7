import Gyza.Attestation
import Gyza.Envelope
import Gyza.RustCanonJson

/-! Chain verification in Rust (`gyza-icp`) against chain verification in Python. -/

namespace Gyza

open CanonJson (Json)
open Hex (Bytes)

/-- Fields in the order in which they are declared, and so written. -/
structure EnvelopePayload where
  actionId : String
  agentPubkey : String
  capabilityManifestHash : String
  durationMs : Int64
  inferenceBackend : String
  inputHashes : List String
  intentId : String
  modelIdentifier : String
  outputHash : String
  parentEnvelopeHash : Option String
  schemaVersion : Int64
  timestampNs : Int64
  tokensIn : Int64
  tokensOut : Int64

structure SignedEnvelope where
  payload : EnvelopePayload
  signature : String

inductive IcpError where
  | unsigned
  | malformedSignature
  | verificationFailed
  deriving DecidableEq

inductive ChainVerificationError where
  | badAgentPubkey (index : Nat)
  | signatureFailed (index : Nat)
  | parentHashMismatch (index : Nat) (expected : String) (got : Option String)
  | rootHasParent (index : Nat)
  | emptyInputHashes (index : Nat)
  deriving DecidableEq

def ChainVerificationError.index : ChainVerificationError → Nat
  | .badAgentPubkey index => index
  | .signatureFailed index => index
  | .parentHashMismatch index _ _ => index
  | .rootHasParent index => index
  | .emptyInputHashes index => index

/-- What the derived `Serialize` hands to the encoder. -/
def EnvelopePayload.document (payload : EnvelopePayload) : Json :=
  .obj
    [("action_id", .str payload.actionId),
      ("agent_pubkey", .str payload.agentPubkey),
      ("capability_manifest_hash", .str payload.capabilityManifestHash),
      ("duration_ms", .int payload.durationMs.toInt),
      ("inference_backend", .str payload.inferenceBackend),
      ("input_hashes", .arr (payload.inputHashes.map .str)),
      ("intent_id", .str payload.intentId),
      ("model_identifier", .str payload.modelIdentifier),
      ("output_hash", .str payload.outputHash),
      ("parent_envelope_hash", payload.parentEnvelopeHash.elim .null .str),
      ("schema_version", .int payload.schemaVersion.toInt),
      ("timestamp_ns", .int payload.timestampNs.toInt),
      ("tokens_in", .int payload.tokensIn.toInt),
      ("tokens_out", .int payload.tokensOut.toInt)]

def canonicalBytes (payload : EnvelopePayload) : Bytes := RustCanonJson.toVec payload.document

section Verification

variable (crypto : Crypto)

def envelopeHash (payload : EnvelopePayload) : String :=
  Hex.encode (crypto.blake3 (canonicalBytes payload))

def rustVerifyEnvelope (signed : SignedEnvelope) (pubkey : Bytes) : Except IcpError Unit :=
  if signed.signature = "" then .error .unsigned
  else
    match Hex.decode signed.signature with
    | none => .error .malformedSignature
    | some sigBytes =>
        if rustVerify crypto pubkey (crypto.blake3 (canonicalBytes signed.payload)) sigBytes then
          .ok ()
        else .error .verificationFailed

/-- The check of `parent_envelope_hash` after the envelope `previous`. -/
def checkParent (previous : Option SignedEnvelope) (i : Nat) (env : SignedEnvelope) :
    Except ChainVerificationError Unit :=
  match previous with
  | none => if env.payload.parentEnvelopeHash ≠ none then .error (.rootHasParent i) else .ok ()
  | some prev =>
      let expected := envelopeHash crypto prev.payload
      if env.payload.parentEnvelopeHash = some expected then .ok ()
      else .error (.parentHashMismatch i expected env.payload.parentEnvelopeHash)

def rustVerifyChainFrom (previous : Option SignedEnvelope) (i : Nat) :
    List SignedEnvelope → Except ChainVerificationError Unit
  | [] => .ok ()
  | env :: rest =>
      match Hex.decode env.payload.agentPubkey with
      | none => .error (.badAgentPubkey i)
      | some pkBytes =>
          if pkBytes.length ≠ 32 then .error (.badAgentPubkey i)
          else
            match rustVerifyEnvelope crypto env pkBytes with
            | .error _ => .error (.signatureFailed i)
            | .ok () =>
                match checkParent crypto previous i env with
                | .error error => .error error
                | .ok () =>
                    if env.payload.inputHashes = [] then .error (.emptyInputHashes i)
                    else rustVerifyChainFrom (some env) (i + 1) rest

def rustVerifyChain (envelopes : List SignedEnvelope) : Except ChainVerificationError Unit :=
  rustVerifyChainFrom crypto none 0 envelopes

end Verification

/-- The same envelope in Python. Those whose integers fit `i64` all arise so. -/
def SignedEnvelope.toPython (signed : SignedEnvelope) : ICPEnvelope where
  intentId := signed.payload.intentId
  actionId := signed.payload.actionId
  agentPubkey := signed.payload.agentPubkey
  capabilityManifestHash := signed.payload.capabilityManifestHash
  inputHashes := signed.payload.inputHashes
  outputHash := signed.payload.outputHash
  parentEnvelopeHash := signed.payload.parentEnvelopeHash
  timestampNs := signed.payload.timestampNs.toInt
  inferenceBackend := signed.payload.inferenceBackend
  modelIdentifier := signed.payload.modelIdentifier
  durationMs := signed.payload.durationMs.toInt
  tokensIn := signed.payload.tokensIn.toInt
  tokensOut := signed.payload.tokensOut.toInt
  schemaVersion := signed.payload.schemaVersion.toInt
  signature := signed.signature

/-- The integer fields fit `i64`. -/
def ICPEnvelope.IntegersFit (env : ICPEnvelope) : Prop :=
  FitsInt64 env.timestampNs ∧ FitsInt64 env.durationMs ∧ FitsInt64 env.tokensIn ∧
    FitsInt64 env.tokensOut ∧ FitsInt64 env.schemaVersion

theorem exists_toPython_iff (env : ICPEnvelope) :
    (∃ signed : SignedEnvelope, signed.toPython = env) ↔ env.IntegersFit := by
  have fits (value : Int64) : FitsInt64 value.toInt := ⟨value.le_toInt, value.toInt_lt⟩
  have back {value : Int} (fit : FitsInt64 value) : (Int64.ofInt value).toInt = value :=
    Int64.toInt_ofInt_of_le fit.1 fit.2
  constructor
  · rintro ⟨signed, rfl⟩
    exact ⟨fits _, fits _, fits _, fits _, fits _⟩
  · intro ⟨timestamp, duration, tokensIn, tokensOut, schema⟩
    refine ⟨⟨⟨env.actionId, env.agentPubkey, env.capabilityManifestHash, Int64.ofInt env.durationMs,
      env.inferenceBackend, env.inputHashes, env.intentId, env.modelIdentifier, env.outputHash,
      env.parentEnvelopeHash, Int64.ofInt env.schemaVersion, Int64.ofInt env.timestampNs,
      Int64.ofInt env.tokensIn, Int64.ofInt env.tokensOut⟩, env.signature⟩, ?_⟩
    simp only [SignedEnvelope.toPython, back timestamp, back duration, back tokensIn, back tokensOut,
      back schema]

/-- Both languages hash and sign the same bytes. -/
theorem canonicalBytes_eq (signed : SignedEnvelope) :
    canonicalBytes signed.payload = signed.toPython.payloadBytes := by
  rw [canonicalBytes, RustCanonJson.toVec_eq, ICPEnvelope.payloadBytes, sortKeys_payloadFields]
  rfl

section Agreement

variable (crypto : Crypto)

theorem envelopeHash_eq (signed : SignedEnvelope) :
    envelopeHash crypto signed.payload = computeEnvelopeHash crypto signed.toPython := by
  rw [envelopeHash, canonicalBytes_eq]
  rfl

/-- The outcome of Rust as Python would report it. -/
def reported : Except ChainVerificationError Unit → Bool × Int
  | .ok () => (true, -1)
  | .error error => (false, error.index)

/-- Rust returns `Ok` where Python returns `(True, -1)`, and fails at Python's index elsewhere. -/
def ChainsAgree (envelopes : List SignedEnvelope) : Prop :=
  verifyChain crypto (envelopes.map SignedEnvelope.toPython) =
    reported (rustVerifyChain crypto envelopes)

/-- No ASCII whitespace in the two hexadecimal fields that are decoded. -/
def SignedEnvelope.Unspaced (signed : SignedEnvelope) : Prop :=
  signed.payload.agentPubkey.toList.any Hex.isSpace = false ∧
    signed.signature.toList.any Hex.isSpace = false

/-- An envelope that Python accepts after `previous`. -/
structure Hop (previous : Option ICPEnvelope) (env : ICPEnvelope) : Prop where
  verifies : selfVerifies crypto env = true
  linked : env.parentEnvelopeHash = previous.map (computeEnvelopeHash crypto)
  inputs : env.inputHashes ≠ []

variable {crypto}

theorem chainFrom_cons (previous : Option ICPEnvelope) (env : ICPEnvelope)
    (rest : List ICPEnvelope) :
    ChainFrom crypto previous (env :: rest) ↔ Hop crypto previous env ∧
      ChainFrom crypto (some env) rest := by
  constructor
  · intro ⟨verifies, linked, inputs, later⟩
    exact ⟨⟨verifies, linked, inputs⟩, later⟩
  · intro ⟨hop, later⟩
    exact ⟨hop.verifies, hop.linked, hop.inputs, later⟩

theorem selfVerifies_iff {env : ICPEnvelope} :
    selfVerifies crypto env = true ↔ ∃ pubkey, pubkeyBytesOf env = some pubkey ∧
      pubkey.length = 32 ∧ verifyEnvelope crypto env pubkey = true := by
  unfold selfVerifies
  cases pubkeyBytesOf env with
  | none => simp
  | some pubkey => simp

theorem verifyChainFrom_hop {previous : Option ICPEnvelope} {env : ICPEnvelope} (i : Nat)
    (rest : List ICPEnvelope) (hop : Hop crypto previous env) :
    verifyChainFrom crypto previous i (env :: rest) =
      verifyChainFrom crypto (some env) (i + 1) rest := by
  rcases selfVerifies_iff.mp hop.verifies with ⟨pubkey, decoded, length, verified⟩
  rw [verifyChainFrom]
  simp only [decoded, length, verified, hop.linked, hop.inputs, ne_eq, not_true, if_false,
    Bool.true_eq_false]

theorem verifyChainFrom_no_hop {previous : Option ICPEnvelope} {env : ICPEnvelope} (i : Nat)
    (rest : List ICPEnvelope) (noHop : ¬Hop crypto previous env) :
    verifyChainFrom crypto previous i (env :: rest) = (false, (i : Int)) := by
  rw [verifyChainFrom]
  cases decoded : pubkeyBytesOf env with
  | none => rfl
  | some pubkey =>
      simp only
      split_ifs with length unverified unlinked empty
      · rfl
      · rfl
      · rfl
      · rfl
      · have verifies : selfVerifies crypto env = true :=
          selfVerifies_iff.mpr ⟨pubkey, decoded, not_not.mp length, by simpa using unverified⟩
        exact absurd ⟨verifies, not_not.mp unlinked, empty⟩ noHop

/-- Python fails at the index it has come to, or later. -/
theorem verifyChainFrom_index (envelopes : List ICPEnvelope) (previous : Option ICPEnvelope) (i : Nat) :
    verifyChainFrom crypto previous i envelopes = (true, -1) ∨
      ∃ j : Nat, i ≤ j ∧ verifyChainFrom crypto previous i envelopes = (false, (j : Int)) := by
  induction envelopes generalizing previous i with
  | nil => exact Or.inl rfl
  | cons env rest ih =>
      by_cases hop : Hop crypto previous env
      · rw [verifyChainFrom_hop i rest hop]
        rcases ih (some env) (i + 1) with passed | ⟨j, later, failed⟩
        · exact Or.inl passed
        · exact Or.inr ⟨j, by omega, failed⟩
      · exact Or.inr ⟨i, le_rfl, verifyChainFrom_no_hop i rest hop⟩

/-! One hop in Rust. -/

/-- A signature of another length never verifies. -/
def RejectsOtherLengths (crypto : Crypto) : Prop :=
  ∀ pubkey message signature, pubkey.length = 32 → signature.length ≠ 64 →
    crypto.ed25519Verify pubkey message signature = false

theorem rustVerifyEnvelope_ok (sized : RejectsOtherLengths crypto) (signed : SignedEnvelope)
    (pubkey : Bytes) (length : pubkey.length = 32) :
    rustVerifyEnvelope crypto signed pubkey = .ok () ↔
      signed.signature.toList.any Hex.isSpace = false ∧
        verifyEnvelope crypto signed.toPython pubkey = true := by
  have signature : signed.toPython.signature = signed.signature := rfl
  simp only [rustVerifyEnvelope, verifyEnvelope, signature, Hex.decode_eq, canonicalBytes_eq]
  by_cases empty : signed.signature = ""
  · simp [empty]
  by_cases spaced : signed.signature.toList.any Hex.isSpace = true
  · simp [empty, spaced]
  simp only [Bool.not_eq_true] at spaced
  simp only [empty, spaced, if_false, Bool.false_eq_true, true_and]
  cases decoded : Hex.fromhex signed.signature with
  | none => simp
  | some sig =>
      by_cases long : sig.length = 64
      · simp [rustVerify, length, long]
      · simp [rustVerify, length, long, sized pubkey _ sig length long]

theorem checkParent_ok (previous : Option SignedEnvelope) (i : Nat) (env : SignedEnvelope) :
    checkParent crypto previous i env = .ok () ↔ env.payload.parentEnvelopeHash =
      (previous.map SignedEnvelope.toPython).map (computeEnvelopeHash crypto) := by
  cases previous with
  | none =>
      simp only [checkParent, Option.map_none]
      split_ifs with parent
      · simp [parent]
      · simp [not_not.mp parent]
  | some prev =>
      simp only [checkParent, Option.map_some, envelopeHash_eq]
      split_ifs with linked
      · simp [linked]
      · simp [linked]

theorem checkParent_index {previous : Option SignedEnvelope} {i : Nat} {env : SignedEnvelope}
    {error : ChainVerificationError} (failed : checkParent crypto previous i env = .error error) :
    error.index = i := by
  unfold checkParent at failed
  cases previous with
  | none =>
      simp only at failed
      split_ifs at failed
      cases failed
      rfl
  | some prev =>
      simp only at failed
      split_ifs at failed
      cases failed
      rfl

/-- Rust moves on from the hops of Python without whitespace. -/
theorem rustVerifyChainFrom_hop (sized : RejectsOtherLengths crypto)
    {previous : Option SignedEnvelope} {env : SignedEnvelope} (i : Nat)
    (rest : List SignedEnvelope)
    (hop : Hop crypto (previous.map SignedEnvelope.toPython) env.toPython)
    (unspaced : env.Unspaced) :
    rustVerifyChainFrom crypto previous i (env :: rest) =
      rustVerifyChainFrom crypto (some env) (i + 1) rest := by
  rcases selfVerifies_iff.mp hop.verifies with ⟨pubkey, decoded, length, verified⟩
  have key : Hex.decode env.payload.agentPubkey = some pubkey := by
    rw [Hex.decode_eq, unspaced.1]
    exact decoded
  have envelope := (rustVerifyEnvelope_ok sized env pubkey length).mpr ⟨unspaced.2, verified⟩
  have parent := (checkParent_ok previous i env).mpr hop.linked
  have inputs : env.payload.inputHashes ≠ [] := hop.inputs
  rw [rustVerifyChainFrom, key]
  simp only [length, ne_eq, not_true, if_false, envelope, parent, inputs]

/-- Everywhere else it stops. -/
theorem rustVerifyChainFrom_no_hop (sized : RejectsOtherLengths crypto)
    {previous : Option SignedEnvelope} {env : SignedEnvelope} (i : Nat)
    (rest : List SignedEnvelope)
    (stays : ¬(Hop crypto (previous.map SignedEnvelope.toPython) env.toPython ∧ env.Unspaced)) :
    ∃ error, rustVerifyChainFrom crypto previous i (env :: rest) = .error error ∧
      error.index = i := by
  rw [rustVerifyChainFrom]
  cases key : Hex.decode env.payload.agentPubkey with
  | none => exact ⟨_, rfl, rfl⟩
  | some pubkey =>
      simp only
      by_cases length : pubkey.length = 32
      swap
      · exact ⟨_, if_pos length, rfl⟩
      rw [if_neg (not_not.mpr length)]
      cases envelope : rustVerifyEnvelope crypto env pubkey with
      | error error => exact ⟨_, rfl, rfl⟩
      | ok done =>
          simp only
          cases parent : checkParent crypto previous i env with
          | error error => exact ⟨_, rfl, checkParent_index parent⟩
          | ok linked =>
              simp only
              by_cases inputs : env.payload.inputHashes = []
              · exact ⟨_, if_pos inputs, rfl⟩
              -- all checks of Rust passed, so this is a hop after all
              · rcases (rustVerifyEnvelope_ok sized env pubkey length).mp envelope with
                  ⟨signature, verified⟩
                rw [Hex.decode_eq] at key
                split_ifs at key with spaced
                have verifies : selfVerifies crypto env.toPython = true :=
                  selfVerifies_iff.mpr ⟨pubkey, key, length, verified⟩
                have hop : Hop crypto (previous.map SignedEnvelope.toPython) env.toPython :=
                  ⟨verifies, (checkParent_ok previous i env).mp parent, inputs⟩
                exact absurd ⟨hop, by simpa using spaced, signature⟩ stays

/-- Every envelope that Python reaches and accepts is free of whitespace. -/
def AcceptedUnspaced (crypto : Crypto) (previous : Option SignedEnvelope)
    (envelopes : List SignedEnvelope) : Prop :=
  ∀ front env rest, envelopes = front ++ env :: rest →
    ChainFrom crypto (previous.map SignedEnvelope.toPython)
      ((front ++ [env]).map SignedEnvelope.toPython) → env.Unspaced

theorem acceptedUnspaced_cons {previous : Option SignedEnvelope} {env : SignedEnvelope}
    {rest : List SignedEnvelope} :
    AcceptedUnspaced crypto previous (env :: rest) ↔
      (Hop crypto (previous.map SignedEnvelope.toPython) env.toPython →
        env.Unspaced ∧ AcceptedUnspaced crypto (some env) rest) := by
  constructor
  · intro unspaced hop
    constructor
    · apply unspaced [] env rest rfl
      exact (chainFrom_cons _ _ _).mpr ⟨hop, trivial⟩
    · intro front next back split accepted
      apply unspaced (env :: front) next back (by rw [split, List.cons_append])
      exact (chainFrom_cons _ _ _).mpr ⟨hop, accepted⟩
  · intro unspaced front next back split accepted
    cases front with
    | nil =>
        cases split
        exact (unspaced ((chainFrom_cons _ _ _).mp accepted).1).1
    | cons first front =>
        cases split
        rcases (chainFrom_cons _ _ _).mp accepted with ⟨hop, later⟩
        exact (unspaced hop).2 front next back rfl later

theorem chains_agree_from (sized : RejectsOtherLengths crypto) (envelopes : List SignedEnvelope)
    (previous : Option SignedEnvelope) (i : Nat) :
    verifyChainFrom crypto (previous.map SignedEnvelope.toPython) i
        (envelopes.map SignedEnvelope.toPython) =
          reported (rustVerifyChainFrom crypto previous i envelopes) ↔
      AcceptedUnspaced crypto previous envelopes := by
  induction envelopes generalizing previous i with
  | nil =>
      have vacuous : AcceptedUnspaced crypto previous [] := by
        intro front env rest split
        exact absurd split.symm (by simp)
      exact iff_of_true rfl vacuous
  | cons env rest ih =>
      rw [List.map_cons, acceptedUnspaced_cons]
      by_cases hop : Hop crypto (previous.map SignedEnvelope.toPython) env.toPython
      · rw [verifyChainFrom_hop i _ hop]
        by_cases unspaced : env.Unspaced
        · have next := ih (some env) (i + 1)
          rw [Option.map_some] at next
          rw [rustVerifyChainFrom_hop sized i rest hop unspaced, next]
          exact ⟨fun later _ => ⟨unspaced, later⟩, fun all => (all hop).2⟩
        · rcases rustVerifyChainFrom_no_hop sized i rest (fun both => unspaced both.2) with
            ⟨error, failed, index⟩
          -- Rust stops here, while Python goes on and never comes back to this index
          refine iff_of_false ?_ (fun all => unspaced (all hop).1)
          rw [failed, reported, index]
          have python : verifyChainFrom crypto (some env.toPython) (i + 1)
              (rest.map SignedEnvelope.toPython) = (true, -1) ∨ _ := verifyChainFrom_index _ _ _
          rcases python with passed | ⟨j, later, stopped⟩
          · rw [passed]
            simp
          · rw [stopped]
            simp only [Prod.mk.injEq, true_and]
            omega
      · rcases rustVerifyChainFrom_no_hop sized i rest (fun both => hop both.1) with
          ⟨error, failed, index⟩
        rw [verifyChainFrom_no_hop i _ hop, failed, reported, index]
        exact iff_of_true rfl (fun none => absurd none hop)

end Agreement

/-- The verifiers agree on a list exactly when no envelope of the part that Python accepts has
whitespace in its key or signature; on every other point they are one. -/
theorem chains_agree_iff (crypto : Crypto) (sized : RejectsOtherLengths crypto)
    (envelopes : List SignedEnvelope) :
    ChainsAgree crypto envelopes ↔ ∀ front env rest, envelopes = front ++ env :: rest →
      ChainFrom crypto none ((front ++ [env]).map SignedEnvelope.toPython) → env.Unspaced := by
  have agree := chains_agree_from sized envelopes none 0
  rw [Option.map_none] at agree
  exact agree

/-- A space in front of the signature does not matter to Python. -/
theorem selfVerifies_spaced {crypto : Crypto} {env : ICPEnvelope} (signed : env.signature ≠ "") :
    selfVerifies crypto { env with signature := " " ++ env.signature } = selfVerifies crypto env := by
  have spaced : " " ++ env.signature ≠ "" := by
    intro empty
    have chars := congrArg String.toList empty
    rw [String.toList_append] at chars
    cases chars
  have verified (pubkey : Bytes) :
      verifyEnvelope crypto { env with signature := " " ++ env.signature } pubkey =
        verifyEnvelope crypto env pubkey := by
    simp only [verifyEnvelope, if_neg spaced, if_neg signed, Hex.fromhex_space]
    rfl
  simp only [selfVerifies, verified]
  rfl

namespace Sample

/-- The sample envelope with this signature text. -/
def signedWith (signature : String) : SignedEnvelope where
  payload :=
    { actionId := "action-1"
      agentPubkey := (compositor 1).pubkeyHex
      capabilityManifestHash := "m1"
      durationMs := 5
      inferenceBackend := "mock"
      inputHashes := ["input"]
      intentId := "intent-1"
      modelIdentifier := "mock"
      outputHash := "output"
      parentEnvelopeHash := none
      schemaVersion := 1
      timestampNs := 1000
      tokensIn := 3
      tokensOut := 4 }
  signature := signature

def rustSignature : String := (envelope ["input"] "output" none).signature

theorem signedWith_toPython :
    (signedWith rustSignature).toPython = envelope ["input"] "output" none := rfl

theorem rejectsOtherLengths : RejectsOtherLengths crypto := by
  intro pubkey message sig length other
  apply decide_eq_false
  intro same
  apply other
  rw [same]
  simp only [signature, checksumBytes, List.length_append, List.length_map, List.length_range, length]

theorem spaced_toPython : (signedWith (" " ++ rustSignature)).toPython =
    { envelope ["input"] "output" none with signature := " " ++ rustSignature } := rfl

end Sample

theorem chains_agree_sample :
    verifyChain Sample.crypto ([Sample.signedWith Sample.rustSignature].map SignedEnvelope.toPython) =
        (true, -1) ∧
      ChainsAgree Sample.crypto [Sample.signedWith Sample.rustSignature] := by
  constructor
  · rw [verifyChain_accepts, List.map_singleton, Sample.signedWith_toPython]
    exact ⟨Sample.envelope_verifies _ _ _, rfl, List.cons_ne_nil _ _, trivial⟩
  · apply (chains_agree_iff Sample.crypto Sample.rejectsOtherLengths _).mpr
    intro front env rest split _
    have only : env = Sample.signedWith Sample.rustSignature := by
      rw [← List.mem_singleton, split]
      simp
    rw [only]
    exact ⟨Hex.encode_unspaced _, Hex.encode_unspaced _⟩

/-- With a space in front of its signature the envelope passes in Python and not in Rust. -/
theorem chains_disagree :
    verifyChain Sample.crypto
        ([Sample.signedWith (" " ++ Sample.rustSignature)].map SignedEnvelope.toPython) =
          (true, -1) ∧
      ∃ error, rustVerifyChain Sample.crypto [Sample.signedWith (" " ++ Sample.rustSignature)] =
        .error error := by
  constructor
  · rw [verifyChain_accepts]
    refine ⟨?_, rfl, List.cons_ne_nil _ _, trivial⟩
    rw [Sample.spaced_toPython]
    exact (selfVerifies_spaced ((Sample.compositor 1).sign_ne_empty _)).trans
      (Sample.envelope_verifies ["input"] "output" none)
  · have stays : ¬(Hop Sample.crypto ((none : Option SignedEnvelope).map SignedEnvelope.toPython)
        (Sample.signedWith (" " ++ Sample.rustSignature)).toPython ∧
          (Sample.signedWith (" " ++ Sample.rustSignature)).Unspaced) := by
      intro both
      have spaced := both.2.2
      rw [Sample.signedWith, String.toList_append, List.any_append, Bool.or_eq_false_iff] at spaced
      cases spaced.1
    rcases rustVerifyChainFrom_no_hop Sample.rejectsOtherLengths 0 [] stays with ⟨error, failed, _⟩
    exact ⟨error, failed⟩

end Gyza

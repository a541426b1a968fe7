import Gyza.ArtifactStore
import Gyza.RawAudit
import Gyza.RevokedKeys

/-! Chains whose hops come from agents of different compositors:
`verify_chain_multi_compositor` of `gyza/icp.py`, over the artifact store and the
trust registry, and the chains that `verify_chain` accepts. -/

namespace Gyza

open Hex (Bytes)
open PyValue (Fields Value dictGet)
open TrustRegistry (ManifestVerdict)

namespace MultiCompositor

/-- The reasons, with the sixteen characters of a hash that a text shows. -/
inductive Reason where
  | ok
  | manifestMissing (shown : String)
  | manifestDecodeFailed
  | manifestRefused (verdict : ManifestVerdict)
  | agentMismatch
  | keyNotHex
  | keyWrongLength
  | signatureInvalid
  | firstHasParent
  | linkageBroken
  | inputsEmpty
  | inputMissing (shown : String)
  | outputMissing (shown : String)
  deriving DecidableEq

inductive Raised where
  | path (error : PathError)
  /-- Neither of the two errors of decoding. -/
  | loads
  | attributeError
  deriving DecidableEq

/-- What a call returns or raises, and the file system it leaves. -/
structure Outcome where
  result : Except Raised (Bool × Int × Reason)
  tree : FileTree

def shown (hashHex : String) : String := String.ofList (hashHex.toList.take 16)

section Walk

variable (crypto : Crypto) (python : Audit.Python) (registry : TrustRegistry) (store : ArtifactStore)

def present (tree : FileTree) (hashHex : String) : Bool :=
  (store.contains tree hashHex).result = .ok true

/-- The last two checks of a hop. -/
def artifactDefect (tree : FileTree) (env : ICPEnvelope) : Option Reason :=
  match env.inputHashes.find? fun ih => !present store tree ih with
  | some ih => some (.inputMissing (shown ih))
  | none =>
      if present store tree env.outputHash then none
      else some (.outputMissing (shown env.outputHash))

/-- The checks of a hop whose manifest is an object, in their order. A document has no
set in it, so that bytes that cannot be made are a `ValueError` and an invalid signature. -/
def hopDefect (tree : FileTree) (manifest : Fields) (previous : Option ICPEnvelope)
    (env : ICPEnvelope) : Option Reason :=
  let verdict := registry.verifyManifestFromTrustedCompositor crypto python manifest
  if verdict ≠ .ok then some (.manifestRefused verdict)
  else if RawAudit.isText (dictGet manifest "agent_id" .none) env.agentPubkey = false then some .agentMismatch
  else
    match Hex.fromhex env.agentPubkey with
    | none => some .keyNotHex
    | some agentPk =>
        if agentPk.length ≠ 32 then some .keyWrongLength
        else if verifyEnvelope crypto env agentPk = false then some .signatureInvalid
        else if env.parentEnvelopeHash ≠ previous.map (computeEnvelopeHash crypto) then
          some (if previous = none then .firstHasParent else .linkageBroken)
        else if env.inputHashes = [] then some .inputsEmpty
        else artifactDefect store tree env

/-- The loop of `verify_chain_multi_compositor` from index `i`. -/
def verifyHops (previous : Option ICPEnvelope) (i : Nat) (tree : FileTree) :
    List ICPEnvelope → Outcome
  | [] => ⟨.ok (true, -1, .ok), tree⟩
  | env :: rest =>
      let read := store.get crypto tree env.capabilityManifestHash
      match read.result with
      | .error error => ⟨.error (.path error), read.tree⟩
      | .ok none =>
          ⟨.ok (false, i, .manifestMissing (shown env.capabilityManifestHash)), read.tree⟩
      | .ok (some manifestBytes) =>
          match python.loads manifestBytes with
          | .raises => ⟨.error .loads, read.tree⟩
          | .malformed => ⟨.ok (false, i, .manifestDecodeFailed), read.tree⟩
          | .document (.dict manifest) =>
              match hopDefect crypto python registry store read.tree manifest previous env with
              | some reason => ⟨.ok (false, i, reason), read.tree⟩
              | none => verifyHops (some env) (i + 1) read.tree rest
          | .document _ => ⟨.error .attributeError, read.tree⟩

def verifyChainMultiCompositor (tree : FileTree) (envelopes : List ICPEnvelope) : Outcome :=
  verifyHops crypto python registry store none 0 tree envelopes

/-! What the call is for. -/

/-- The file system holds these bytes under the name of their hash. -/
def StoredUnder (tree : FileTree) (hashHex : String) (data : Bytes) : Prop :=
  crypto.hexdigest data = hashHex ∧
    ∃ place mtime, tree.find (store.path hashHex) = .ok (place, .file data mtime)

/-- A manifest signed by a compositor that is trusted now. -/
def SignedByTrusted (manifest : Fields) : Prop :=
  ∃ compositorPubkey sigHex pkBytes sigBytes digest,
    dictGet manifest "compositor_pubkey" .none = .str compositorPubkey ∧
    registry.isTrusted compositorPubkey = true ∧
    dictGet manifest "signature" .none = .str sigHex ∧ sigHex ≠ "" ∧
    Hex.fromhex compositorPubkey = some pkBytes ∧ pkBytes.length = 32 ∧
    Hex.fromhex sigHex = some sigBytes ∧
    TrustRegistry.manifestPayloadHash crypto python manifest = some digest ∧
    crypto.ed25519Verify pkBytes digest sigBytes = true

/-- The stored manifest of a hop hashes to its name, names the agent, and is signed. -/
def ManifestHolds (tree : FileTree) (env : ICPEnvelope) : Prop :=
  ∃ data manifest, StoredUnder crypto store tree env.capabilityManifestHash data ∧
    python.loads data = .document (.dict manifest) ∧
    dictGet manifest "agent_id" .none = .str env.agentPubkey ∧
    SignedByTrusted crypto python registry manifest

/-- The call returns, and what it reports valid is a chain of manifests that hold. -/
def MeetsContract (tree : FileTree) (envelopes : List ICPEnvelope) : Prop :=
  (∃ verdict, (verifyChainMultiCompositor crypto python registry store tree envelopes).result =
    .ok verdict) ∧
  ∀ i reason, (verifyChainMultiCompositor crypto python registry store tree envelopes).result =
      .ok (true, i, reason) →
    verifyChain crypto envelopes = (true, -1) ∧
      ∀ env ∈ envelopes, ManifestHolds crypto python registry store tree env

/-! When it does. -/

/-- The name of a manifest leads to no directory, and the bytes stored under it are no
JSON text or the text of an object. -/
def ManifestReadable (tree : FileTree) (env : ICPEnvelope) : Prop :=
  (∀ place, tree.find (store.path env.capabilityManifestHash) ≠ .ok (place, .dir)) ∧
    ∀ data, StoredUnder crypto store tree env.capabilityManifestHash data →
      python.loads data = .malformed ∨ ∃ manifest, python.loads data = .document (.dict manifest)

/-- A hop without a defect. -/
def HopSound (tree : FileTree) (previous : Option ICPEnvelope) (env : ICPEnvelope) : Prop :=
  ManifestHolds crypto python registry store tree env ∧ selfVerifies crypto env = true ∧
    env.parentEnvelopeHash = previous.map (computeEnvelopeHash crypto) ∧ env.inputHashes ≠ [] ∧
    (∀ ih ∈ env.inputHashes, present store tree ih = true) ∧
    present store tree env.outputHash = true

/-- Every hop up to the first one with a defect has a readable manifest. -/
def ReadableFrom (tree : FileTree) : Option ICPEnvelope → List ICPEnvelope → Prop
  | _, [] => True
  | previous, env :: rest =>
      ManifestReadable crypto python store tree env ∧
        (HopSound crypto python registry store tree previous env → ReadableFrom tree (some env) rest)

end Walk

variable {crypto : Crypto} {python : Audit.Python} {registry : TrustRegistry} {store : ArtifactStore}
  {tree : FileTree}

/-! Reading a manifest. -/

section Reading

variable {hashHex : String} {data : Bytes}

theorem StoredUnder.get_eq (stored : StoredUnder crypto store tree hashHex data) :
    (store.get crypto tree hashHex).result = .ok (some data) ∧
      (store.get crypto tree hashHex).tree = tree := by
  obtain ⟨named, place, mtime, found⟩ := stored
  unfold ArtifactStore.get
  rw [found]
  dsimp only
  rw [if_neg (not_not.mpr named)]
  exact ⟨rfl, rfl⟩

/-- Bytes that nothing of the name is stored as: a directory raises, anything else reads as
missing. -/
theorem get_not_stored (missing : ∀ data, ¬StoredUnder crypto store tree hashHex data) :
    (∃ place, tree.find (store.path hashHex) = .ok (place, .dir)) ∧
        (store.get crypto tree hashHex).result = .error .isADirectory ∨
      (∀ place, tree.find (store.path hashHex) ≠ .ok (place, .dir)) ∧
        (store.get crypto tree hashHex).result = .ok none := by
  unfold ArtifactStore.get
  cases found : tree.find (store.path hashHex) with
  | error error => exact Or.inr ⟨fun place => by simp, rfl⟩
  | ok row =>
      obtain ⟨place, node⟩ := row
      cases node with
      | dir => exact Or.inl ⟨⟨place, rfl⟩, rfl⟩
      | file data mtime =>
          have mismatch : crypto.hexdigest data ≠ hashHex := by
            intro named
            exact missing data ⟨named, place, mtime, found⟩
          refine Or.inr ⟨fun other => by simp, ?_⟩
          dsimp only
          rw [if_pos mismatch]

/-- At most one manifest is stored under a name. -/
theorem StoredUnder.unique {other : Bytes} (stored : StoredUnder crypto store tree hashHex data)
    (stored' : StoredUnder crypto store tree hashHex other) : data = other := by
  have same := stored.get_eq.1.symm.trans stored'.get_eq.1
  cases same
  rfl

end Reading

/-! One hop. -/

section Hop

variable {manifest : Fields} {previous : Option ICPEnvelope} {env : ICPEnvelope}
  {rest : List ICPEnvelope} {i : Nat}

theorem checkManifestSignature_ok_iff {pubkey sigHex : String} :
    TrustRegistry.checkManifestSignature crypto python pubkey sigHex manifest = .ok ↔
      ∃ pkBytes sigBytes digest, Hex.fromhex pubkey = some pkBytes ∧ pkBytes.length = 32 ∧
        Hex.fromhex sigHex = some sigBytes ∧
        TrustRegistry.manifestPayloadHash crypto python manifest = some digest ∧
        crypto.ed25519Verify pkBytes digest sigBytes = true := by
  unfold TrustRegistry.checkManifestSignature
  cases Hex.fromhex pubkey with
  | none => simp
  | some pkBytes =>
      cases Hex.fromhex sigHex with
      | none => simp
      | some sigBytes =>
          by_cases length : pkBytes.length = 32
          · cases TrustRegistry.manifestPayloadHash crypto python manifest with
            | none => simp [length]
            | some digest => simp [length]
          · simp [length]

/-- The registry accepts exactly what one of its compositors has signed. -/
theorem verifyManifest_ok_iff_signed :
    registry.verifyManifestFromTrustedCompositor crypto python manifest = .ok ↔
      SignedByTrusted crypto python registry manifest := by
  constructor
  · intro accepted
    cases named : dictGet manifest "compositor_pubkey" .none with
    | str pubkey =>
        obtain ⟨-, trusted, sigHex, signature, signed, checked⟩ :=
          (TrustRegistry.verifyManifest_ok_iff named).mp accepted
        obtain ⟨pkBytes, sigBytes, digest, decoded, length, sig, payload, verified⟩ :=
          checkManifestSignature_ok_iff.mp checked
        exact ⟨pubkey, sigHex, pkBytes, sigBytes, digest, named, trusted, signature, signed, decoded,
          length, sig, payload, verified⟩
    | _ =>
        unfold TrustRegistry.verifyManifestFromTrustedCompositor at accepted
        rw [named] at accepted
        cases accepted
  · rintro ⟨pubkey, sigHex, pkBytes, sigBytes, digest, named, trusted, signature, signed, decoded,
      length, sig, payload, verified⟩
    refine (TrustRegistry.verifyManifest_ok_iff named).mpr ⟨?_, trusted, sigHex, signature, signed,
      checkManifestSignature_ok_iff.mpr
        ⟨pkBytes, sigBytes, digest, decoded, length, sig, payload, verified⟩⟩
    rintro rfl
    cases decoded
    cases length

theorem isText_iff {value : Value} {text : String} :
    RawAudit.isText value text = true ↔ value = .str text := by
  unfold RawAudit.isText
  split
  · simp
  · rename_i other
    simp only [Bool.false_eq_true, false_iff]
    exact fun same => other text same

theorem artifactDefect_none_iff : artifactDefect store tree env = none ↔
    (∀ ih ∈ env.inputHashes, present store tree ih = true) ∧
      present store tree env.outputHash = true := by
  unfold artifactDefect
  cases found : env.inputHashes.find? fun ih => !present store tree ih with
  | some ih =>
      have absent := List.find?_some found
      have member := List.mem_of_find?_eq_some found
      simp only [reduceCtorEq, false_iff, not_and]
      intro all
      rw [all ih member] at absent
      cases absent
  | none =>
      rw [List.find?_eq_none] at found
      have all : ∀ ih ∈ env.inputHashes, present store tree ih = true := by
        intro ih member
        simpa using found ih member
      dsimp only
      split_ifs with output
      · exact iff_of_true rfl ⟨all, output⟩
      · simp [output]

theorem hopDefect_none_iff :
    hopDefect crypto python registry store tree manifest previous env = none ↔
      SignedByTrusted crypto python registry manifest ∧
      dictGet manifest "agent_id" .none = .str env.agentPubkey ∧ selfVerifies crypto env = true ∧
      env.parentEnvelopeHash = previous.map (computeEnvelopeHash crypto) ∧ env.inputHashes ≠ [] ∧
      (∀ ih ∈ env.inputHashes, present store tree ih = true) ∧
      present store tree env.outputHash = true := by
  rw [← verifyManifest_ok_iff_signed, ← isText_iff, ← artifactDefect_none_iff]
  unfold hopDefect selfVerifies pubkeyBytesOf
  dsimp only
  by_cases accepted : registry.verifyManifestFromTrustedCompositor crypto python manifest = .ok
  · rw [if_neg (not_not.mpr accepted)]
    cases RawAudit.isText (dictGet manifest "agent_id" .none) env.agentPubkey with
    | false => simp
    | true =>
        cases Hex.fromhex env.agentPubkey with
        | none => simp
        | some agentPk =>
            by_cases length : agentPk.length = 32
            · cases verified : verifyEnvelope crypto env agentPk with
              | false => simp [length, verified]
              | true =>
                  by_cases linked :
                      env.parentEnvelopeHash = previous.map (computeEnvelopeHash crypto)
                  · by_cases empty : env.inputHashes = []
                    · simp [length, verified, linked, empty]
                    · simp [accepted, length, verified, linked, empty]
                  · simp [length, verified, linked]
            · simp [length]
  · simp [accepted]

/-- A sound hop hands over to the rest of the chain. -/
theorem verifyHops_sound (sound : HopSound crypto python registry store tree previous env) :
    verifyHops crypto python registry store previous i tree (env :: rest) =
      verifyHops crypto python registry store (some env) (i + 1) tree rest := by
  obtain ⟨⟨data, manifest, stored, parsed, agent, signed⟩, others⟩ := sound
  obtain ⟨result, kept⟩ := stored.get_eq
  have clear : hopDefect crypto python registry store tree manifest previous env = none :=
    hopDefect_none_iff.mpr ⟨signed, agent, others⟩
  simp only [verifyHops, result, kept, parsed, clear]

/-- A readable manifest of a hop that is not sound ends the walk with an answer. -/
theorem verifyHops_defect (readable : ManifestReadable crypto python store tree env)
    (unsound : ¬HopSound crypto python registry store tree previous env) : ∃ reason,
    (verifyHops crypto python registry store previous i tree (env :: rest)).result =
      .ok (false, i, reason) := by
  by_cases missing : ∀ data, ¬StoredUnder crypto store tree env.capabilityManifestHash data
  · rcases get_not_stored missing with ⟨⟨place, found⟩, -⟩ | ⟨-, result⟩
    · exact absurd found (readable.1 place)
    · exact ⟨_, by simp only [verifyHops, result]; rfl⟩
  · push Not at missing
    obtain ⟨data, stored⟩ := missing
    obtain ⟨result, kept⟩ := stored.get_eq
    rcases readable.2 data stored with malformed | ⟨manifest, parsed⟩
    · exact ⟨_, by simp only [verifyHops, result, malformed]; rfl⟩
    · cases defect : hopDefect crypto python registry store tree manifest previous env with
      | some reason => exact ⟨reason, by simp only [verifyHops, result, kept, parsed, defect]⟩
      | none =>
          obtain ⟨signed, agent, others⟩ := hopDefect_none_iff.mp defect
          exact absurd ⟨⟨data, manifest, stored, parsed, agent, signed⟩, others⟩ unsound

/-- A manifest that is not readable raises. -/
theorem verifyHops_raises (unreadable : ¬ManifestReadable crypto python store tree env) :
    ∃ error, (verifyHops crypto python registry store previous i tree (env :: rest)).result =
      .error error := by
  by_cases missing : ∀ data, ¬StoredUnder crypto store tree env.capabilityManifestHash data
  · rcases get_not_stored missing with ⟨-, result⟩ | ⟨nowhere, -⟩
    · exact ⟨_, by simp only [verifyHops, result]; rfl⟩
    · exact absurd ⟨nowhere, fun data stored => absurd stored (missing data)⟩ unreadable
  · push Not at missing
    obtain ⟨data, stored⟩ := missing
    obtain ⟨result, -⟩ := stored.get_eq
    have file : ∀ place, tree.find (store.path env.capabilityManifestHash) ≠ .ok (place, .dir) := by
      obtain ⟨-, place, mtime, found⟩ := stored
      intro other same
      rw [found] at same
      cases same
    cases parsed : python.loads data with
    | raises => exact ⟨.loads, by simp only [verifyHops, result, parsed]⟩
    | malformed =>
        refine absurd ⟨file, fun other stored' => Or.inl ?_⟩ unreadable
        rw [← stored.unique stored']
        exact parsed
    | document value =>
        cases value with
        | dict manifest =>
            refine absurd ⟨file, fun other stored' => Or.inr ⟨manifest, ?_⟩⟩ unreadable
            rw [← stored.unique stored']
            exact parsed
        | _ => exact ⟨.attributeError, by simp only [verifyHops, result, parsed]⟩

end Hop

/-! The walk. -/

theorem verifyHops_answers_iff (previous : Option ICPEnvelope) (i : Nat)
    (envelopes : List ICPEnvelope) :
    (∃ verdict, (verifyHops crypto python registry store previous i tree envelopes).result =
        .ok verdict) ↔ ReadableFrom crypto python registry store tree previous envelopes := by
  induction envelopes generalizing previous i with
  | nil => exact iff_of_true ⟨_, rfl⟩ trivial
  | cons env rest ih =>
      rw [ReadableFrom]
      by_cases readable : ManifestReadable crypto python store tree env
      · by_cases sound : HopSound crypto python registry store tree previous env
        · rw [verifyHops_sound sound, ih]
          exact ⟨fun later => ⟨readable, fun _ => later⟩, fun both => both.2 sound⟩
        · obtain ⟨reason, answered⟩ := @verifyHops_defect _ _ _ _ _ _ _ rest i readable sound
          exact iff_of_true ⟨_, answered⟩ ⟨readable, fun same => absurd same sound⟩
      · obtain ⟨error, raised⟩ :=
          @verifyHops_raises crypto python registry store tree previous env rest i readable
        refine iff_of_false ?_ fun both => readable both.1
        rintro ⟨verdict, answered⟩
        rw [raised] at answered
        cases answered

/-- What is reported valid is a chain, and all its manifests hold. -/
theorem verifyHops_valid {previous : Option ICPEnvelope} {i : Nat} {envelopes : List ICPEnvelope}
    {last : Int} {reason : Reason}
    (valid : (verifyHops crypto python registry store previous i tree envelopes).result =
      .ok (true, last, reason)) :
    ChainFrom crypto previous envelopes ∧
      ∀ env ∈ envelopes, ManifestHolds crypto python registry store tree env := by
  induction envelopes generalizing previous i with
  | nil => exact ⟨trivial, by simp⟩
  | cons env rest ih =>
      by_cases sound : HopSound crypto python registry store tree previous env
      · rw [verifyHops_sound sound] at valid
        obtain ⟨chain, manifests⟩ := ih valid
        obtain ⟨holds, verified, linked, inputs, -, -⟩ := sound
        refine ⟨⟨verified, linked, inputs, chain⟩, ?_⟩
        intro other member
        rcases List.mem_cons.mp member with rfl | later
        · exact holds
        · exact manifests other later
      · by_cases readable : ManifestReadable crypto python store tree env
        · obtain ⟨found, answered⟩ := @verifyHops_defect _ _ _ _ _ _ _ rest i readable sound
          rw [answered] at valid
          cases valid
        · obtain ⟨error, raised⟩ :=
            @verifyHops_raises crypto python registry store tree previous env rest i readable
          rw [raised] at valid
          cases valid

end MultiCompositor

open MultiCompositor

namespace Sample

/-- Reads one text, a list, as `json.loads` does. -/
def listPython : Audit.Python where
  loads data := if data = [91, 93] then .document Value.emptyList else .malformed
  str := pathText
  floatRepr _ := []
  truncate _ := 0
  intOfText _ := none

/-- A store that holds the text of an empty list under its hash. -/
def listTree : FileTree :=
  let hashHex := crypto.hexdigest [91, 93]
  ((FileTree.empty.put ["cas"] .dir).put ["cas", shard hashHex] .dir).put
    (artifactStore.artifactAt hashHex) (.file [91, 93] 0)

/-- A hop that names the list as its manifest. -/
def listHop : ICPEnvelope :=
  { envelope ["A"] "B" none with capabilityManifestHash := crypto.hexdigest [91, 93] }

end Sample

end Gyza

import Gyza.Audit

/-! What the audit's verdict is worth: when it is reached at all, and when a
VALID one binds every artifact to the manifest its envelope names. -/

namespace Gyza

open Hex (Bytes utf8)
open PyValue (Fields Value dictGet)

namespace Audit

section Verdict

variable (crypto : Crypto) (python : Python) (resolvers : Resolvers)

/-- The artifact oversteps a bound of a manifest its envelope's lookups answer with. -/
def Violates (i : Nat) (env : ICPEnvelope) : Prop :=
  ∃ art ∈ resolvers.artifact i env.outputHash, ∃ fields, artifactFields python art = .ok fields ∧
    ((isDict (enforcementOf fields) = true ∧
        ∃ manifest ∈ resolvers.manifest i .execution env.capabilityManifestHash, ∃ why,
          enforcementSatisfiesManifest python.str (enforcementOf fields) (.dict manifest) =
            .ok (.error why)) ∨
      ((subtasksOf fields).truthy = true ∧
        ∃ manifest ∈ resolvers.manifest i .decomposition env.capabilityManifestHash, ∃ grant,
          spawnGrant python manifest = .ok grant ∧
            (grant.permitted = false ∨
              ∃ count, (subtasksOf fields).len = some count ∧ grant.cap < count)))

/-- The manifest that bounds the artifact's subtasks is the one the envelope names. -/
def DecompositionNamed (i : Nat) (env : ICPEnvelope) : Prop :=
  ∀ art ∈ resolvers.artifact i env.outputHash, ∀ fields, artifactFields python art = .ok fields →
    (subtasksOf fields).truthy = true →
      ∀ manifest ∈ resolvers.manifest i .decomposition env.capabilityManifestHash,
        manifestHashHex crypto python manifest = some env.capabilityManifestHash

/-- The artifact is the signed one, and within manifests of the named hash. -/
def BoundToNamed (i : Nat) (env : ICPEnvelope) : Prop :=
  ∃ art ∈ resolvers.artifact i env.outputHash, crypto.hexdigest art = env.outputHash ∧
    ∃ fields, artifactFields python art = .ok fields ∧
      EnforcementHolds crypto python env.capabilityManifestHash (enforcementOf fields)
        (resolvers.manifest i .execution env.capabilityManifestHash) ∧
      DecompositionHolds python (subtasksOf fields)
        ((resolvers.manifest i .decomposition env.capabilityManifestHash).filter (fun manifest =>
          manifestHashHex crypto python manifest = some env.capabilityManifestHash))

variable {crypto python resolvers}

theorem violates_not_holds {requireAllArtifacts : Bool} {i : Nat} {env : ICPEnvelope}
    (violates : Violates python resolvers i env) :
    ¬RowHolds crypto python resolvers requireAllArtifacts i env := by
  rcases violates with ⟨art, resolved, fields, read, violation⟩
  rw [RowHolds, Option.mem_def.mp resolved]
  rintro ⟨_, fields', read', enforcement, decomposition⟩
  cases read.symm.trans read'
  cases violation with
  | inl beyond =>
      rcases beyond with ⟨record, manifest, answered, why, refused⟩
      rcases enforcement record with ⟨manifest', answered', _, accepted⟩
      cases answered.symm.trans answered'
      cases refused.symm.trans accepted
  | inr beyond =>
      rcases beyond with ⟨listed, manifest, answered, grant, granted, exceeded⟩
      rcases decomposition listed with
        ⟨manifest', answered', grant', granted', permitted, count, counted, within⟩
      cases answered.symm.trans answered'
      cases granted.symm.trans granted'
      cases exceeded with
      | inl forbidden => exact absurd permitted (by simp [forbidden])
      | inr above =>
          rcases above with ⟨count', counted', above⟩
          cases counted.symm.trans counted'
          omega

/-- The audit answers, and calls no violation valid, exactly when it can read
every artifact and manifest that its rows open. -/
theorem audit_answers_iff (crypto : Crypto) (python : Python) (resolvers : Resolvers)
    (requireClosed requireAllArtifacts : Bool) (envelopes : List ICPEnvelope) :
    (∃ report,
      auditProvenance crypto python resolvers requireClosed requireAllArtifacts envelopes =
        .ok report ∧
      ((∃ i env, envelopes[i]? = some env ∧ Violates python resolvers i env) →
        report.valid = false)) ↔
      ∀ i env, envelopes[i]? = some env → RowReadable crypto python resolvers i env := by
  rw [← auditProvenance_answers_iff requireClosed requireAllArtifacts]
  constructor
  · intro ⟨report, audited, _⟩
    exact ⟨report, audited⟩
  · intro ⟨report, audited⟩
    refine ⟨report, audited, ?_⟩
    intro ⟨i, env, found, violates⟩
    by_contra accepted
    rw [Bool.not_eq_false, auditProvenance_valid audited] at accepted
    exact violates_not_holds violates (accepted.2 i env found)

theorem boundToNamed_iff {i : Nat} {env : ICPEnvelope}
    (holds : RowHolds crypto python resolvers true i env) :
    BoundToNamed crypto python resolvers i env ↔
      DecompositionNamed crypto python resolvers i env := by
  unfold RowHolds at holds
  cases resolved : resolvers.artifact i env.outputHash with
  | none => simp [resolved] at holds
  | some art =>
      rw [resolved] at holds
      rcases holds with ⟨signed, fields, read, enforcement, decomposition⟩
      constructor
      · intro ⟨art', resolved', _, fields', read', _, named⟩
        cases resolved.symm.trans resolved'
        intro art' resolved' fields'' read'' listed manifest answered
        cases resolved.symm.trans resolved'
        cases read.symm.trans read'
        cases read.symm.trans read''
        rcases named listed with ⟨manifest', answered', _⟩
        rcases Option.mem_filter_iff.mp answered' with ⟨answered', hash⟩
        cases answered.symm.trans answered'
        exact of_decide_eq_true hash
      · intro named
        refine ⟨art, resolved, signed, fields, read, enforcement, ?_⟩
        intro listed
        rcases decomposition listed with ⟨manifest, answered, within⟩
        refine ⟨manifest, Option.mem_filter_iff.mpr ⟨answered, ?_⟩, within⟩
        exact decide_eq_true (named art resolved fields read listed manifest answered)

/-- A VALID audit with every artifact held binds them all to the named manifests
exactly when, on a bundle that passes the audit's checks, every manifest looked up
for a decomposition has the named hash. -/
theorem audit_binds_iff (crypto : Crypto) (python : Python) (resolvers : Resolvers)
    (requireClosed : Bool) (envelopes : List ICPEnvelope) :
    (∀ report, auditProvenance crypto python resolvers requireClosed true envelopes = .ok report →
      report.valid = true →
        ∀ i env, envelopes[i]? = some env → BoundToNamed crypto python resolvers i env) ↔
      ((verifyDag crypto requireClosed envelopes).valid = true →
        (∀ i env, envelopes[i]? = some env → RowHolds crypto python resolvers true i env) →
          ∀ i env, envelopes[i]? = some env →
            DecompositionNamed crypto python resolvers i env) := by
  constructor
  · intro bound intact holds i env found
    rcases (auditProvenance_answers_iff requireClosed true envelopes).mpr
      (fun k other member => (holds k other member).readable) with ⟨report, audited⟩
    have valid := (auditProvenance_valid audited).mpr ⟨intact, holds⟩
    exact (boundToNamed_iff (holds i env found)).mp (bound report audited valid i env found)
  · intro named report audited valid i env found
    rcases (auditProvenance_valid audited).mp valid with ⟨intact, holds⟩
    exact (boundToNamed_iff (holds i env found)).mpr (named intact holds i env found)

/-- One verified envelope without a spine parent is a valid graph. -/
theorem verifyDag_root (ideal : Function.Injective crypto.blake3) (requireClosed : Bool)
    {env : ICPEnvelope} (verified : selfVerifies crypto env = true)
    (root : env.parentEnvelopeHash = none) (inputs : env.inputHashes ≠ []) :
    (verifyDag crypto requireClosed [env]).valid = true := by
  have edgeless : ∀ parent child, ¬DependsOn crypto [env] parent child := by
    intro parent child ⟨other, member, hash, edge⟩
    rcases List.mem_singleton.mp member with rfl
    rcases edge with ⟨spine, _⟩ | ⟨input, _, ⟨⟨producer, held, _, produced⟩, _⟩, apart⟩
    · rw [root] at spine
      cases spine
    · rcases List.mem_singleton.mp held with rfl
      exact apart (produced.symm.trans hash)
  rw [verifyDag_valid_iff ideal]
  refine ⟨?_, ?_, ?_, ?_⟩
  · intro h other found
    rcases List.mem_singleton.mp (lookup_byHash_mem found).1 with rfl
    exact verified
  · intro other member
    rcases List.mem_singleton.mp member with rfl
    exact inputs
  · intro _ other member parent spine
    rcases List.mem_singleton.mp member with rfl
    rw [root] at spine
    cases spine
  · intro h loop
    rcases Relation.TransGen.head'_iff.mp loop with ⟨next, edge, _⟩
    exact edgeless h next edge

/-- The canonical text of a manifest starts with its opening brace. -/
theorem manifestHashHex_opens {manifest : Fields} {hash : String}
    (hashed : manifestHashHex crypto python manifest = some hash) :
    ∃ rest, hash = crypto.hexdigest (0x7b :: rest) := by
  rcases Option.map_eq_some_iff.mp hashed with ⟨document, serialised, rfl⟩
  rcases Option.map_eq_some_iff.mp serialised with ⟨fields, _, rfl⟩
  rcases CanonJson.Doc.utf8_dumps_obj python.floatRepr
    (CanonJson.Doc.sortFields (CanonJson.Doc.normalFields fields)) with ⟨rest, opens⟩
  exact ⟨rest, congrArg crypto.hexdigest opens⟩

end Verdict

end Audit

namespace Sample

def decompositionBytes : Bytes := utf8 "\x7b\"__subtasks__\":[\"a\",\"b\"]\x7d"

/-- The parser on the one artifact below. -/
def python : Audit.Python where
  loads bytes :=
    if bytes = decompositionBytes then
      .document (.dict [("__subtasks__", .collection .list [.str "a", .str "b"])])
    else .malformed
  str := pathText
  floatRepr _ := []
  truncate _ := 0
  intOfText _ := none

/-- A signed action that decomposed into two subtasks. -/
def decomposed : ICPEnvelope :=
  signEnvelope (compositor 1) {
    intentId := "intent-1"
    actionId := "action-1"
    agentPubkey := (compositor 1).pubkeyHex
    capabilityManifestHash := Hex.encode (List.replicate 32 0)
    inputHashes := ["input"]
    outputHash := crypto.hexdigest decompositionBytes
    parentEnvelopeHash := none
    timestampNs := 1000
    inferenceBackend := "mock"
    modelIdentifier := "mock"
    durationMs := 5
    tokensIn := 3
    tokensOut := 4 }

/-- Every lookup is answered with the same manifest. -/
def resolvers (manifest : Fields) : Audit.Resolvers where
  artifact _ _ := some decompositionBytes
  manifest _ _ _ := some manifest

/-- A manifest that permits eight subtasks; its hash is not the one `decomposed` names. -/
def spawnManifest : Fields :=
  [("capabilities", .dict [("spawn", .dict [("permitted", .bool true),
    ("resource_budget", .dict [("max_children", .int 8)])])])]

theorem decomposed_read : Audit.artifactFields python decompositionBytes =
    .ok [("__subtasks__", .collection .list [.str "a", .str "b"])] := by
  simp [Audit.artifactFields, python, Value.fields]

theorem decomposed_holds : Audit.RowHolds crypto python (resolvers spawnManifest) true 0
    decomposed := by
  refine ⟨rfl, _, decomposed_read, ?_, ?_⟩
  · intro recorded
    cases recorded
  · intro _
    exact ⟨spawnManifest, rfl, ⟨true, 8⟩, rfl, rfl, 2, rfl, by decide⟩

end Sample

open Audit in
/-- A capability block that is a text, where the code calls `get` on it. -/
theorem audit_raises : ¬∃ report,
    auditProvenance Sample.crypto Sample.python (Sample.resolvers [("capabilities", .str "all")])
      true true [Sample.decomposed] = .ok report := by
  rw [auditProvenance_answers_iff]
  intro readable
  rcases readable 0 Sample.decomposed rfl Sample.decompositionBytes rfl rfl with
    ⟨fields, read, _, decomposition⟩
  cases Sample.decomposed_read.symm.trans read
  rcases decomposition rfl [("capabilities", .str "all")] rfl with ⟨grant, granted, _⟩
  cases granted

open Audit in
/-- The decomposition is measured by a manifest that is not the named one; no
manifest has the named hash. -/
theorem audit_valid_unnamed :
    (∃ report, auditProvenance Sample.crypto Sample.python (Sample.resolvers Sample.spawnManifest)
        true true [Sample.decomposed] = .ok report ∧ report.valid = true) ∧
      (∀ manifest, manifestHashHex Sample.crypto Sample.python manifest ≠
        some Sample.decomposed.capabilityManifestHash) ∧
      ¬BoundToNamed Sample.crypto Sample.python (Sample.resolvers Sample.spawnManifest) 0
        Sample.decomposed := by
  have unnamed : ∀ manifest, manifestHashHex Sample.crypto Sample.python manifest ≠
      some Sample.decomposed.capabilityManifestHash := by
    intro manifest hashed
    rcases manifestHashHex_opens hashed with ⟨rest, same⟩
    have bytes := Hex.encode_injective same
    cases bytes
  have rows : ∀ i env, [Sample.decomposed][i]? = some env →
      RowHolds Sample.crypto Sample.python (Sample.resolvers Sample.spawnManifest) true i env := by
    intro i env found
    cases i with
    | zero =>
        cases found
        exact Sample.decomposed_holds
    | succ i => cases found
  rcases (auditProvenance_answers_iff true true [Sample.decomposed]).mpr
    (fun i env found => (rows i env found).readable) with ⟨report, audited⟩
  have intact := verifyDag_root Sample.blake3_injective true
    (signEnvelope_verifies (Sample.compositor 1) _ rfl : selfVerifies Sample.crypto
      Sample.decomposed = true) rfl (by simp [signEnvelope])
  refine ⟨⟨report, audited, (auditProvenance_valid audited).mpr ⟨intact, rows⟩⟩, unnamed, ?_⟩
  rintro ⟨art, resolved, _, fields, read, _, decomposition⟩
  cases resolved
  cases Sample.decomposed_read.symm.trans read
  rcases decomposition rfl with ⟨manifest, answered, _⟩
  exact unnamed manifest (of_decide_eq_true (Option.mem_filter_iff.mp answered).2)

end Gyza

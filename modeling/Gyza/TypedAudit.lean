import Gyza.Evidence
import Gyza.AuditVerdict
import Gyza.Lib.KeyOrder

/-! The audit over any field types, on envelopes whose fields have the declared ones.

There it is the audit of `Audit.lean` with the governance claims recorded beside it. -/

namespace Gyza

open Hex (Bytes)
open PyValue (Fields Value dictGet)
open Audit (AuditError)

/-! The provenance graph. -/

namespace RawDag

open RawEnvelope

variable {crypto : Crypto} {python : Audit.Python}

theorem verifyEnvelope_ofEnvelope (env : ICPEnvelope) (pubkey : Bytes) :
    verifyEnvelope crypto python (ofEnvelope env) pubkey =
      .ok (Gyza.verifyEnvelope crypto env pubkey) := by
  have signature : (ofEnvelope env).signature = .str env.signature := rfl
  rw [verifyEnvelope, Gyza.verifyEnvelope, signature, payloadBytes_ofEnvelope]
  by_cases empty : env.signature = ""
  · simp [empty, Value.truthy]
  · rw [if_neg (by simpa [Value.truthy] using empty), if_neg empty, fromhexField]
    cases Hex.fromhex env.signature <;> rfl

theorem byHash_from (envelopes : List ICPEnvelope) (held : Dict String ICPEnvelope) :
    (envelopes.map ofEnvelope).foldlM (fun dict env => do
        pure (dict.set (← computeEnvelopeHash crypto python env) env)) (held.mapValues ofEnvelope) =
      (.ok ((envelopes.foldl (fun dict env =>
        dict.set (Gyza.computeEnvelopeHash crypto env) env) held).mapValues ofEnvelope) :
          Except AuditError (Dict String RawEnvelope)) := by
  induction envelopes generalizing held with
  | nil => rfl
  | cons env rest ih =>
      rw [List.map_cons, List.foldlM_cons, computeEnvelopeHash_ofEnvelope, List.foldl_cons, ← ih,
        Dict.mapValues_set]
      rfl

theorem byHash_ofEnvelope (envelopes : List ICPEnvelope) :
    byHash crypto python (envelopes.map ofEnvelope) =
      .ok ((Gyza.byHash crypto envelopes).mapValues ofEnvelope) :=
  byHash_from envelopes Dict.empty

theorem envelopeDefect_ofEnvelope (requireClosed : Bool) (held : Dict String ICPEnvelope)
    (h : String) (env : ICPEnvelope) :
    envelopeDefect crypto python requireClosed (held.mapValues ofEnvelope) (h, ofEnvelope env) =
      .ok (Gyza.envelopeDefect crypto requireClosed held (h, env)) := by
  have pubkey : (ofEnvelope env).agentPubkey = .str env.agentPubkey := rfl
  have inputs : (ofEnvelope env).inputHashes.truthy = false ↔ env.inputHashes = [] := by
    simp [ofEnvelope, Value.truthy]
  have parent : parentDefect requireClosed (held.mapValues ofEnvelope) h
      (ofEnvelope env).parentEnvelopeHash =
        .ok (env.parentEnvelopeHash.bind (fun parent =>
          if requireClosed = true ∧ parent ∉ held.keys then
            some (shortHash h ++ ": spine parent " ++ shortHash parent ++
              " not held (DAG not closed — predecessor lost or altered)")
          else none)) := by
    cases spine : env.parentEnvelopeHash with
    | none => simp [ofEnvelope, spine, parentDefect]
    | some parent =>
        simp only [ofEnvelope, spine, Option.elim, parentDefect, Dict.keys_mapValues]
        split_ifs <;> simp_all
  rw [envelopeDefect, Gyza.envelopeDefect, pubkey, fromhexField, pubkeyBytesOf]
  dsimp only [bind, Except.bind]
  cases Hex.fromhex env.agentPubkey with
  | none => rfl
  | some pubkey =>
      dsimp only
      rw [verifyEnvelope_ofEnvelope, parent]
      simp only [inputs]
      cases env.parentEnvelopeHash <;> split_ifs <;> rfl

theorem firstDefect_ofEnvelope (requireClosed : Bool) (held : Dict String ICPEnvelope)
    (rows : List (String × ICPEnvelope)) :
    firstDefect crypto python requireClosed (held.mapValues ofEnvelope)
        (rows.map (fun row => (row.1, ofEnvelope row.2))) =
      .ok (rows.findSome? (Gyza.envelopeDefect crypto requireClosed held)) := by
  induction rows with
  | nil => rfl
  | cons row rest ih =>
      rw [List.map_cons, firstDefect, envelopeDefect_ofEnvelope, ih, List.findSome?_cons]
      dsimp only [bind, Except.bind]
      cases Gyza.envelopeDefect crypto requireClosed held row <;> rfl

/-- A dictionary keyed by hashable values, read at the texts. -/
def AtTexts (dict : Dict HashKey String) (texts : Dict String String) : Prop :=
  ∀ text, dict.lookup (.text text) = texts.lookup text

theorem AtTexts.setdefault {dict : Dict HashKey String} {texts : Dict String String}
    (same : AtTexts dict texts) (text value : String) :
    AtTexts (dict.setdefault (.text text) value) (texts.setdefault text value) := by
  intro other
  rw [Dict.lookup_setdefault, Dict.lookup_setdefault, same]
  by_cases equal : text = other <;> simp [equal]

theorem byOutput_from (rows : List (String × ICPEnvelope)) {dict : Dict HashKey String}
    {texts : Dict String String} (same : AtTexts dict texts) :
    ∃ producers, (rows.map (fun row => (row.1, ofEnvelope row.2))).foldlM (fun dict row => do
        pure (dict.setdefault (← hashKey row.2.outputHash) row.1)) dict =
          (.ok producers : Except AuditError (Dict HashKey String)) ∧
      AtTexts producers (rows.foldl (fun dict row =>
        dict.setdefault row.2.outputHash row.1) texts) := by
  induction rows generalizing dict texts with
  | nil => exact ⟨dict, rfl, same⟩
  | cons row rest ih =>
      obtain ⟨producers, folded, texts'⟩ := ih (same.setdefault row.2.outputHash row.1)
      exact ⟨producers, folded, texts'⟩

theorem byOutput_ofEnvelope (held : Dict String ICPEnvelope) :
    ∃ producers, byOutput (held.mapValues ofEnvelope) = .ok producers ∧
      AtTexts producers (Gyza.byOutput held) := by
  have rows : (sortedHashes (held.mapValues ofEnvelope).keys).filterMap
      (fun h => ((held.mapValues ofEnvelope).lookup h).map (fun env => (h, env))) =
        ((sortedHashes held.keys).filterMap
          (fun h => (held.lookup h).map (fun env => (h, env)))).map
            (fun row => (row.1, ofEnvelope row.2)) := by
    rw [Dict.keys_mapValues, List.map_filterMap]
    simp only [Dict.lookup_mapValues, Option.map_map]
    rfl
  have outputs : Gyza.outputs held = ((sortedHashes held.keys).filterMap
      (fun h => (held.lookup h).map (fun env => (h, env)))).map
        (fun row => (row.2.outputHash, row.1)) := by
    rw [Gyza.outputs, List.map_filterMap]
    simp only [Option.map_map]
    rfl
  have empty : AtTexts Dict.empty Dict.empty := fun _ => rfl
  obtain ⟨producers, folded, texts⟩ := byOutput_from ((sortedHashes held.keys).filterMap
    (fun h => (held.lookup h).map (fun env => (h, env)))) empty
  refine ⟨producers, ?_, ?_⟩
  · rw [byOutput, rows]
    exact folded
  · rw [Gyza.byOutput, outputs, List.foldl_map]
    exact texts

theorem mapM_hashKey (texts : List String) :
    (texts.map Value.str).mapM hashKey = .ok (texts.map HashKey.text) := by
  induction texts with
  | nil => rfl
  | cons text rest ih =>
      rw [List.map_cons, List.mapM_cons, ih]
      rfl

theorem parentsOf_ofEnvelope (held : Dict String ICPEnvelope) {producers : Dict HashKey String}
    (texts : AtTexts producers (Gyza.byOutput held)) {h : String} {env : ICPEnvelope}
    (kept : held.lookup h = some env) :
    parentsOf (held.mapValues ofEnvelope) producers (h, ofEnvelope env) =
      .ok (Gyza.provenanceParents held (Gyza.byOutput held) h) := by
  have spine : spineParent (held.mapValues ofEnvelope) (ofEnvelope env).parentEnvelopeHash =
      .ok (env.parentEnvelopeHash.toList.filter (· ∈ held.keys)).toFinset := by
    cases spine : env.parentEnvelopeHash with
    | none => simp [ofEnvelope, spine, spineParent, hashKey, bind, Except.bind, pure, Except.pure]
    | some parent =>
        by_cases member : parent ∈ held.keys <;>
          simp [ofEnvelope, spine, member, spineParent, hashKey, bind, Except.bind, pure, Except.pure]
  have inputs : iterate (ofEnvelope env).inputHashes = .ok (env.inputHashes.map .str) := rfl
  have found : (env.inputHashes.map HashKey.text).filterMap producers.lookup =
      env.inputHashes.filterMap (Gyza.byOutput held).lookup := by
    rw [List.filterMap_map]
    exact List.filterMap_congr (fun text _ => texts text)
  rw [parentsOf, spine, inputs]
  dsimp only [bind, Except.bind]
  rw [mapM_hashKey]
  dsimp only
  rw [found, Gyza.provenanceParents, kept]
  rfl

theorem provenanceParents_ofEnvelope (held : Dict String ICPEnvelope)
    {producers : Dict HashKey String} (texts : AtTexts producers (Gyza.byOutput held)) :
    provenanceParents (held.mapValues ofEnvelope) producers =
      .ok (held.rows.map
        (fun row => (row.1, Gyza.provenanceParents held (Gyza.byOutput held) row.1))) := by
  rw [provenanceParents, Checks.mapM_ok_iff]
  have rows : (held.mapValues ofEnvelope).rows =
      held.rows.map (fun row => (row.1, ofEnvelope row.2)) := rfl
  rw [rows, List.forall₂_map_left_iff, List.forall₂_map_right_iff, List.forall₂_same]
  intro row member
  rw [parentsOf_ofEnvelope held texts ((Dict.lookup_eq_some _ _ _).mpr member)]
  rfl

theorem orderedDag_eq (held : Dict String RawEnvelope) (rows : List (String × Finset String))
    (parents : String → Finset String) (same : (fun h => (rows.lookup h).getD ∅) = parents) :
    orderedDag held rows =
      match Kahn.topoOrder held.keys parents with
      | none => ⟨false, "provenance cycle detected", [], [], []⟩
      | some order =>
          ⟨true, "ok", order.filterMap held.lookup,
            sortedHashes (held.keys.filter (fun h => parents h = ∅)),
            sortedHashes (held.keys.filter (fun h => ∀ child ∈ held.keys, h ∉ parents child))⟩ := by
  subst same
  rfl

theorem parents_lookup (held : Dict String ICPEnvelope) (h : String) :
    ((held.rows.map (fun row =>
        (row.1, Gyza.provenanceParents held (Gyza.byOutput held) row.1))).lookup h).getD ∅ =
      Gyza.provenanceParents held (Gyza.byOutput held) h := by
  have distinct : ((held.rows.map (fun row =>
      (row.1, Gyza.provenanceParents held (Gyza.byOutput held) row.1))).map Prod.fst).Nodup := by
    rw [List.map_map]
    exact held.distinct
  cases kept : held.lookup h with
  | some env =>
      have member := (Dict.lookup_eq_some held h env).mp kept
      have found := (CanonJson.Doc.mem_lookup distinct h
        (Gyza.provenanceParents held (Gyza.byOutput held) h)).mpr
          (List.mem_map.mpr ⟨(h, env), member, rfl⟩)
      rw [found]
      rfl
  | none =>
      have absent : (held.rows.map (fun row =>
          (row.1, Gyza.provenanceParents held (Gyza.byOutput held) row.1))).lookup h = none := by
        rw [List.lookup_eq_none_iff]
        intro row member
        obtain ⟨⟨key, env⟩, present, rfl⟩ := List.mem_map.mp member
        have other : h ≠ key := by
          rintro rfl
          rw [(Dict.lookup_eq_some held h env).mpr present] at kept
          cases kept
        simpa using other
      rw [absent, Gyza.provenanceParents, kept]
      rfl

/-- The verdict with its envelopes as any others. -/
def ofVerification (dag : DagVerification) : RawDagVerification :=
  ⟨dag.valid, dag.reason, dag.topoOrder.map ofEnvelope, dag.roots, dag.leaves⟩

theorem verifyDag_ofEnvelope (requireClosed : Bool) (envelopes : List ICPEnvelope) :
    verifyDag crypto python requireClosed (envelopes.map ofEnvelope) =
      .ok (ofVerification (Gyza.verifyDag crypto requireClosed envelopes)) := by
  have rows : ((Gyza.byHash crypto envelopes).mapValues ofEnvelope).rows =
      (Gyza.byHash crypto envelopes).rows.map (fun row => (row.1, ofEnvelope row.2)) := rfl
  rw [verifyDag, byHash_ofEnvelope]
  dsimp only [bind, Except.bind]
  rw [rows, firstDefect_ofEnvelope, Gyza.verifyDag]
  generalize Gyza.byHash crypto envelopes = held
  dsimp only
  cases held.rows.findSome? (Gyza.envelopeDefect crypto requireClosed held) with
  | some reason => rfl
  | none =>
      obtain ⟨producers, produced, texts⟩ := byOutput_ofEnvelope held
      dsimp only
      rw [produced]
      dsimp only
      rw [provenanceParents_ofEnvelope held texts]
      dsimp only [pure, Except.pure]
      rw [orderedDag_eq _ _ _ (funext (parents_lookup held)), Dict.keys_mapValues]
      have kept : ∀ order : List String, order.filterMap (held.mapValues ofEnvelope).lookup =
          (order.filterMap held.lookup).map ofEnvelope := by
        intro order
        rw [List.map_filterMap]
        exact List.filterMap_congr (fun h _ => Dict.lookup_mapValues ofEnvelope held h)
      rw [dagOrder]
      cases Kahn.topoOrder held.keys (Gyza.provenanceParents held (Gyza.byOutput held)) with
      | none => rfl
      | some order =>
          dsimp only
          rw [kept]
          rfl

end RawDag

/-! The rows and the report. -/

namespace Evidence

/-- The resolvers of the local audit, on the texts that typed envelopes hold. -/
def localResolvers (resolvers : Resolvers) : RawAudit.Resolvers where
  artifact address := (hashKey address).map fun key =>
    match key with
    | .text text => resolvers.artifact text
    | _ => none
  manifest address := (hashKey address).map fun key =>
    match key with
    | .text text => resolvers.manifest text
    | _ => none

def localAudit (crypto : Crypto) (python : RawAudit.Python) (resolvers : Resolvers)
    (envelopes : List ICPEnvelope) : Except AuditError RawAudit.AuditReport :=
  RawAudit.auditProvenance crypto python (localResolvers resolvers) true true
    (envelopes.map RawEnvelope.ofEnvelope)

/-- The same resolvers, asked twice with the same answer. -/
def steadyResolvers (resolvers : Resolvers) : Audit.Resolvers where
  artifact _ := resolvers.artifact
  manifest _ _ := resolvers.manifest

end Evidence

namespace RawAudit

open RawEnvelope
open Evidence (localResolvers steadyResolvers)

variable {crypto : Crypto} {python : Python} {resolvers : Evidence.Resolvers}

theorem checkEnforcement_ofEnvelope (env : ICPEnvelope) (enforcement : Value) :
    (checkEnforcement crypto python (localResolvers resolvers) (ofEnvelope env) enforcement).map
        Prod.fst =
      Audit.checkEnforcement crypto python.toPython env.capabilityManifestHash enforcement
        (resolvers.manifest env.capabilityManifestHash) := by
  have answer : (localResolvers resolvers).manifest (ofEnvelope env).capabilityManifestHash =
      .ok (resolvers.manifest env.capabilityManifestHash) := rfl
  have named : (ofEnvelope env).capabilityManifestHash = .str env.capabilityManifestHash := rfl
  rw [checkEnforcement, answer, named]
  cases enforcement with
  | dict record =>
      dsimp only [Audit.isDict, bind, Except.bind, Audit.checkEnforcement]
      cases resolvers.manifest env.capabilityManifestHash with
      | none => rfl
      | some manifest =>
          cases hashed : Audit.manifestHashHex crypto python.toPython manifest with
          | none => simp [checkExecution, hashed, Except.map]
          | some hash =>
              by_cases same : env.capabilityManifestHash = hash
              · cases gate : enforcementSatisfiesManifest python.str (.dict record)
                    (.dict manifest) with
                | error raised => simp [checkExecution, hashed, isText, same, gate, Except.map]
                | ok verdict =>
                    cases verdict <;>
                      simp [checkExecution, hashed, isText, same, gate, Except.map, pure, Except.pure]
              · simp [checkExecution, hashed, isText, same, Ne.symm same, Except.map, pure,
                  Except.pure]
  | _ => rfl

theorem checkArtifact_ofEnvelope (i : Nat) (env : ICPEnvelope) (art : Bytes) :
    (checkArtifact crypto python (localResolvers resolvers) (ofEnvelope env) art).map Prod.fst =
      Audit.checkArtifact crypto python.toPython (steadyResolvers resolvers) i env art := by
  have enforced := @checkEnforcement_ofEnvelope crypto python resolvers env
  rw [checkArtifact, Audit.checkArtifact]
  cases Audit.artifactFields python.toPython art with
  | error fault => rfl
  | ok fields =>
      dsimp only [bind, Except.bind]
      have enforced := enforced (Audit.enforcementOf fields)
      have answer : (steadyResolvers resolvers).manifest i .execution env.capabilityManifestHash =
          resolvers.manifest env.capabilityManifestHash := rfl
      rw [answer, ← enforced]
      cases checkEnforcement crypto python (localResolvers resolvers) (ofEnvelope env)
          (Audit.enforcementOf fields) with
      | error fault => rfl
      | ok pair =>
          have decomposed : checkDecomposition python (localResolvers resolvers) (ofEnvelope env)
              (Audit.subtasksOf fields) pair.1 =
                Audit.checkDecomposition python.toPython (Audit.subtasksOf fields)
                  (resolvers.manifest env.capabilityManifestHash) pair.1 := by
            rw [checkDecomposition]
            by_cases any : (Audit.subtasksOf fields).truthy = true
            · rw [if_pos any]
              rfl
            · rw [if_neg any]
              unfold Audit.checkDecomposition
              rw [if_neg any]
          dsimp only [Except.map]
          rw [decomposed]
          have same : (steadyResolvers resolvers).manifest i .decomposition
              env.capabilityManifestHash = resolvers.manifest env.capabilityManifestHash := rfl
          rw [same]
          cases Audit.checkDecomposition python.toPython (Audit.subtasksOf fields)
            (resolvers.manifest env.capabilityManifestHash) pair.1 <;> rfl

def ofAction (row : Audit.ActionAudit) : ActionAudit where
  actionId := .str row.actionId
  envelopeHash := row.envelopeHash
  isExecution := row.isExecution
  bindingOk := row.bindingOk
  manifestBoundOk := row.manifestBoundOk
  withinBounds := row.withinBounds
  ok := row.ok
  reason := row.reason

/-- The claims on a decomposition are made without an exception where the artifact's bytes
are parsed without one. -/
theorem announced_ofEnvelope (actions : Dict HashKey RawEnvelope) (env : ICPEnvelope)
    {art : Option Bytes} (quiet : ∀ bytes, art = some bytes → python.loadsBytes bytes ≠ .raises) :
    ∃ claims, announced python (localResolvers resolvers) actions (ofEnvelope env) art =
      .ok claims := by
  have answer : (localResolvers resolvers).manifest (ofEnvelope env).capabilityManifestHash =
      .ok (resolvers.manifest env.capabilityManifestHash) := rfl
  unfold announced
  split
  next artifact parsed =>
    by_cases announces : (Audit.subtasksOf artifact).truthy = true
    · rw [if_pos announces, answer]
      exact ⟨_, rfl⟩
    · rw [if_neg announces]
      exact ⟨_, rfl⟩
  next raises =>
    obtain ⟨bytes, held, raised⟩ := Option.map_eq_some_iff.mp raises
    exact absurd raised (quiet bytes held)
  next => exact ⟨_, rfl⟩

theorem auditRow_ofEnvelope (requireAllArtifacts : Bool) (actions : Dict HashKey RawEnvelope)
    (i : Nat) (env : ICPEnvelope) (quiet : ∀ bytes, resolvers.artifact env.outputHash = some bytes →
      python.loadsBytes bytes ≠ .raises) :
    (auditRow crypto python (localResolvers resolvers) requireAllArtifacts actions
        (ofEnvelope env)).map Prod.fst =
      (Audit.auditRow crypto python.toPython (steadyResolvers resolvers) requireAllArtifacts i
        env).map ofAction := by
  have answer : (localResolvers resolvers).artifact (ofEnvelope env).outputHash =
      .ok (resolvers.artifact env.outputHash) := rfl
  have same : (steadyResolvers resolvers).artifact i env.outputHash =
      resolvers.artifact env.outputHash := rfl
  have pubkey : RawDag.fromhexField (ofEnvelope env).agentPubkey =
      .ok (Hex.fromhex env.agentPubkey) := rfl
  have named : (ofEnvelope env).outputHash = .str env.outputHash := rfl
  obtain ⟨claims, announced⟩ := announced_ofEnvelope actions env quiet
  rw [auditRow, Audit.auditRow, computeEnvelopeHash_ofEnvelope, answer, pubkey, same]
  dsimp only [bind, Except.bind]
  rw [announced, named]
  dsimp only [isText]
  cases art : resolvers.artifact env.outputHash with
  | none => rfl
  | some bytes =>
      have checked := @checkArtifact_ofEnvelope crypto python resolvers i env bytes
      have bound : (some bytes).any (fun bytes => decide (env.outputHash = crypto.hexdigest bytes)) =
          (some bytes).any (fun bytes => decide (crypto.hexdigest bytes = env.outputHash)) := by
        simp [eq_comm]
      rw [bound]
      dsimp only [checkBinding]
      by_cases binding : ((some bytes).any
          (fun bytes => decide (crypto.hexdigest bytes = env.outputHash))) = true
      · rw [if_pos binding, if_pos binding, ← checked]
        cases checkArtifact crypto python (localResolvers resolvers) (ofEnvelope env) bytes <;> rfl
      · rw [if_neg binding, if_neg binding]
        rfl

theorem auditRows_ofEnvelope (requireAllArtifacts : Bool) (actions : Dict HashKey RawEnvelope)
    (envelopes : List ICPEnvelope) (i : Nat)
    (quiet : ∀ env ∈ envelopes, ∀ bytes, resolvers.artifact env.outputHash = some bytes →
      python.loadsBytes bytes ≠ .raises) :
    ((envelopes.map ofEnvelope).mapM
        (auditRow crypto python (localResolvers resolvers) requireAllArtifacts actions)).map
          (List.map Prod.fst) =
      (Audit.auditRows crypto python.toPython (steadyResolvers resolvers) requireAllArtifacts i
        envelopes).map (List.map ofAction) := by
  rw [← Checks.mapM_map]
  induction envelopes generalizing i with
  | nil => rfl
  | cons env rest ih =>
      rw [List.forall_mem_cons] at quiet
      rw [List.map_cons, List.mapM_cons, ih (i + 1) quiet.2,
        auditRow_ofEnvelope requireAllArtifacts actions i env quiet.1, Audit.auditRows]
      cases Audit.auditRow crypto python.toPython (steadyResolvers resolvers) requireAllArtifacts i
          env with
      | error fault => rfl
      | ok row =>
          cases Audit.auditRows crypto python.toPython (steadyResolvers resolvers)
            requireAllArtifacts (i + 1) rest <;> rfl

theorem byAction_ofEnvelope (envelopes : List ICPEnvelope) (dict : Dict HashKey RawEnvelope) :
    ∃ actions, (envelopes.map ofEnvelope).foldlM (fun dict env => do
        pure (dict.set (← hashKey env.actionId) env)) dict =
      (.ok actions : Except AuditError (Dict HashKey RawEnvelope)) := by
  induction envelopes generalizing dict with
  | nil => exact ⟨dict, rfl⟩
  | cons env rest ih => exact ih (dict.set (.text env.actionId) (ofEnvelope env))

/-- A report without its governance. -/
def AuditReport.verdict (report : AuditReport) :
    RawDagVerification × List ActionAudit × Bool × String :=
  (report.dag, report.actions, report.valid, report.summary)

/-- Governance feeds nothing back: without it the report is that of the typed audit. -/
theorem auditProvenance_ofEnvelope (requireClosed requireAllArtifacts : Bool)
    {envelopes : List ICPEnvelope}
    (quiet : ∀ env ∈ envelopes, ∀ bytes, resolvers.artifact env.outputHash = some bytes →
      python.loadsBytes bytes ≠ .raises) :
    (auditProvenance crypto python (localResolvers resolvers) requireClosed requireAllArtifacts
        (envelopes.map ofEnvelope)).map AuditReport.verdict =
      (Audit.auditProvenance crypto python.toPython (steadyResolvers resolvers) requireClosed
        requireAllArtifacts envelopes).map (fun report =>
          (RawDag.ofVerification report.dag, report.actions.map ofAction, report.valid,
            report.summary)) := by
  obtain ⟨actions, keyed⟩ := byAction_ofEnvelope envelopes Dict.empty
  have rows := @auditRows_ofEnvelope crypto python resolvers requireAllArtifacts actions envelopes 0
    quiet
  rw [auditProvenance, Audit.auditProvenance, RawDag.verifyDag_ofEnvelope, byAction, keyed]
  dsimp only [bind, Except.bind]
  generalize (envelopes.map ofEnvelope).mapM
    (auditRow crypto python (localResolvers resolvers) requireAllArtifacts actions) = audited at rows ⊢
  generalize Audit.auditRows crypto python.toPython (steadyResolvers resolvers) requireAllArtifacts
    0 envelopes = plain at rows ⊢
  cases audited with
  | error fault =>
      cases plain with
      | error fault' =>
          cases rows
          rfl
      | ok actions' => cases rows
  | ok judged =>
      cases plain with
      | error fault => cases rows
      | ok actions' =>
          have same : judged.map Prod.fst = actions'.map ofAction := Except.ok.inj rows
          have valid : (actions'.map ofAction).all (·.ok) = actions'.all (·.ok) := by
            rw [List.all_map]
            rfl
          have executions : ((actions'.map ofAction).filter (·.isExecution)).length =
              (actions'.filter (·.isExecution)).length := by
            rw [List.filter_map, List.length_map]
            rfl
          dsimp only [Except.map, pure, Except.pure, AuditReport.verdict]
          rw [same, valid, executions, List.length_map]
          rfl

end RawAudit

/-- Both audits give the same verdict. -/
theorem Evidence.localAudit_valid_iff {crypto : Crypto} {python : RawAudit.Python}
    {resolvers : Evidence.Resolvers} {envelopes : List ICPEnvelope}
    (quiet : ∀ env ∈ envelopes, ∀ bytes, resolvers.artifact env.outputHash = some bytes →
      python.loadsBytes bytes ≠ .raises) (valid : Bool) :
    (∃ report, Evidence.localAudit crypto python resolvers envelopes = .ok report ∧
        report.valid = valid) ↔
      ∃ report, Audit.auditProvenance crypto python.toPython (Evidence.steadyResolvers resolvers)
        true true envelopes = .ok report ∧ report.valid = valid := by
  have same := @RawAudit.auditProvenance_ofEnvelope crypto python resolvers true true envelopes quiet
  rw [← Evidence.localAudit] at same
  generalize Evidence.localAudit crypto python resolvers envelopes = audited at same ⊢
  generalize Audit.auditProvenance crypto python.toPython (Evidence.steadyResolvers resolvers)
    true true envelopes = plain at same ⊢
  cases audited with
  | error fault =>
      cases plain with
      | error fault' => simp
      | ok report' => cases same
  | ok report =>
      cases plain with
      | error fault' => cases same
      | ok report' =>
          have verdicts := Except.ok.inj same
          have valid' : report.valid = report'.valid := congrArg (fun verdict => verdict.2.2.1) verdicts
          simp [valid']

end Gyza

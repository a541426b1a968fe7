import Gyza.HostileGraph
import Gyza.PortableAudit

/-! Which bundles are refused or judged, and which make an exception escape. -/

namespace Gyza

open CanonJson (Doc FloatText)
open Hex (Bytes utf8)
open PyValue (Fields Value dictGet)
open Audit (AuditError)
open Checks (Answers)
open RawDag (HasPayload)

namespace Evidence

/-! What the maps of a bundle hold for an address. -/

/-- What a dictionary has under a key, which must be a text to be one of its. -/
def heldAt {α : Type} (held : List (String × α)) : Value → Option α
  | .str text => held.lookup text
  | _ => none

/-- The manifest under a key, if what is there is an object. -/
def manifestNamed (manifests : Fields) (address : Value) : Option Fields :=
  (heldAt manifests address).bind (fun manifest =>
    match manifest with
    | .dict fields => some fields
    | _ => none)

theorem heldBy_eq {α : Type} (held : List (String × α)) {address : Value}
    (hashable : isHashable address = true) : heldBy held address = .ok (heldAt held address) := by
  cases address <;> first | rfl | cases hashable

theorem heldBy_answers_iff {α : Type} (held : List (String × α)) (address : Value) :
    Answers (heldBy held address) ↔ isHashable address = true := by
  rw [heldBy, Checks.answers_map, hashKey_answers_iff]

theorem manifest_eq (artifacts : List (String × Bytes)) (manifests : Fields) {address : Value}
    (hashable : isHashable address = true) :
    (bundleResolvers artifacts manifests).manifest address =
      .ok (manifestNamed manifests address) := by
  have unfolded : (bundleResolvers artifacts manifests).manifest address =
      (heldBy manifests address).map (fun held => held.bind (fun manifest =>
        match manifest with
        | .dict fields => some fields
        | _ => none)) := rfl
  rw [unfolded, heldBy_eq manifests hashable]
  rfl

theorem manifest_answers_iff (artifacts : List (String × Bytes)) (manifests : Fields)
    (address : Value) :
    Answers ((bundleResolvers artifacts manifests).manifest address) ↔ isHashable address = true := by
  rw [← heldBy_answers_iff manifests address]
  exact Checks.answers_map _ _

/-! Rows. -/

section Rows

variable (crypto : Crypto) (python : RawAudit.Python) (artifacts : List (String × Bytes))
  (manifests : Fields)

/-- The manifest of an execution has a hash, and can be measured where it is the named one. -/
def ExecutionReadable (named enforcement : Value) (answer : Option Fields) : Prop :=
  ∀ manifest, answer = some manifest →
    ∃ hash, Audit.manifestHashHex crypto python.toPython manifest = some hash ∧
      (RawAudit.isText named hash = true → Audit.RecordComplete enforcement →
        Audit.PathsReadable manifest)

/-- The record is within the manifest of the named hash. -/
def ExecutionHolds (named enforcement : Value) (answer : Option Fields) : Prop :=
  Audit.isDict enforcement = true → ∃ manifest hash, answer = some manifest ∧
    Audit.manifestHashHex crypto python.toPython manifest = some hash ∧
      RawAudit.isText named hash = true ∧
      enforcementSatisfiesManifest python.str enforcement (.dict manifest) = .ok (.ok ())

/-- What the audit needs of an artifact that has the envelope's hash. -/
def ArtifactReadable (env : RawEnvelope) (art : Bytes) : Prop :=
  ∃ fields, Audit.artifactFields python.toPython art = .ok fields ∧
    (Audit.isDict (Audit.enforcementOf fields) = true →
      isHashable env.capabilityManifestHash = true ∧
        ExecutionReadable crypto python env.capabilityManifestHash (Audit.enforcementOf fields)
          (manifestNamed manifests env.capabilityManifestHash)) ∧
    ((Audit.subtasksOf fields).truthy = true → isHashable env.capabilityManifestHash = true) ∧
    Audit.DecompositionReadable python.toPython (Audit.subtasksOf fields)
      (manifestNamed manifests env.capabilityManifestHash)
      (ExecutionHolds crypto python env.capabilityManifestHash (Audit.enforcementOf fields)
        (manifestNamed manifests env.capabilityManifestHash))

/-- What the claims on a decomposition need of an artifact. -/
def AnnouncementReadable (env : RawEnvelope) (art : Bytes) : Prop :=
  python.loadsBytes art ≠ .raises ∧
    ∀ fields, python.loadsBytes art = .document (.dict fields) →
      (Audit.subtasksOf fields).truthy = true → isHashable env.capabilityManifestHash = true

def RowReadable (env : RawEnvelope) : Prop :=
  ∀ art, heldAt artifacts env.outputHash = some art →
    AnnouncementReadable python env art ∧
      (RawAudit.isText env.outputHash (crypto.hexdigest art) = true →
        ArtifactReadable crypto python manifests env art)

variable {crypto python artifacts manifests}

theorem checkExecution_answers_iff (named : Value) (record : Fields) (answer : Option Fields) :
    Answers (RawAudit.checkExecution crypto python named (.dict record) answer) ↔
      ExecutionReadable crypto python named (.dict record) answer := by
  unfold RawAudit.checkExecution ExecutionReadable
  cases answer with
  | none => simp
  | some manifest =>
      have gate := Audit.gate_answers_iff python.str record manifest
      dsimp only
      cases hashed : Audit.manifestHashHex crypto python.toPython manifest with
      | none => simp [hashed]
      | some hash =>
          dsimp only
          by_cases same : RawAudit.isText named hash = true
          · rw [if_neg (by simp [same])]
            cases verdict : enforcementSatisfiesManifest python.str (.dict record)
                (.dict manifest) with
            | error raised =>
                rw [verdict] at gate
                simpa [hashed, same] using gate
            | ok result =>
                rw [verdict] at gate
                cases result <;> simpa [hashed, same] using gate
          · rw [Bool.not_eq_true] at same
            simp [hashed, same]

/-- The row has no reason yet exactly when the record is within the named manifest. -/
theorem checkExecution_ok {named : Value} {record : Fields} {answer : Option Fields}
    {checks : Audit.Checks}
    (checked : RawAudit.checkExecution crypto python named (.dict record) answer = .ok checks) :
    checks.reason.isNone = true ↔ ExecutionHolds crypto python named (.dict record) answer := by
  unfold RawAudit.checkExecution at checked
  unfold ExecutionHolds
  cases answer with
  | none =>
      cases checked
      simp [Audit.isDict]
  | some manifest =>
      dsimp only at checked
      cases hashed : Audit.manifestHashHex crypto python.toPython manifest with
      | none => simp [hashed] at checked
      | some hash =>
          rw [hashed] at checked
          dsimp only at checked
          by_cases same : RawAudit.isText named hash = true
          · rw [if_neg (by simp [same])] at checked
            cases verdict : enforcementSatisfiesManifest python.str (.dict record)
                (.dict manifest) with
            | error raised => simp [verdict] at checked
            | ok result =>
                rw [verdict] at checked
                cases result with
                | error why =>
                    cases checked
                    simp [Audit.isDict, hashed, verdict]
                | ok accepted =>
                    cases checked
                    simp [Audit.isDict, hashed, same, verdict]
          · rw [Bool.not_eq_true] at same
            rw [if_pos same] at checked
            cases checked
            simp [Audit.isDict, hashed, same]

theorem checkEnforcement_answers_iff (env : RawEnvelope) (enforcement : Value) :
    Answers (RawAudit.checkEnforcement crypto python (bundleResolvers artifacts manifests) env
        enforcement) ↔
      (Audit.isDict enforcement = true → isHashable env.capabilityManifestHash = true ∧
        ExecutionReadable crypto python env.capabilityManifestHash enforcement
          (manifestNamed manifests env.capabilityManifestHash)) := by
  unfold RawAudit.checkEnforcement
  cases enforcement with
  | dict record =>
      rw [if_pos (show Audit.isDict (.dict record) = true from rfl)]
      by_cases hashable : isHashable env.capabilityManifestHash = true
      · rw [manifest_eq artifacts manifests hashable]
        dsimp only [bind, Except.bind]
        have checked := @checkExecution_answers_iff crypto python env.capabilityManifestHash record
          (manifestNamed manifests env.capabilityManifestHash)
        cases executed : RawAudit.checkExecution crypto python env.capabilityManifestHash
            (.dict record) (manifestNamed manifests env.capabilityManifestHash) with
        | error fault =>
            rw [executed] at checked
            simpa [hashable, Audit.isDict] using checked
        | ok checks =>
            rw [executed] at checked
            simpa [hashable, Audit.isDict] using checked
      · have raised := mt (manifest_answers_iff artifacts manifests _).mp hashable
        rw [Checks.answers_bind]
        constructor
        · rintro ⟨answer, answered, -⟩
          exact absurd ⟨answer, answered⟩ raised
        · intro readable
          exact absurd (readable rfl).1 hashable
  | _ => simp [Audit.isDict]

theorem checkEnforcement_ok {env : RawEnvelope} {enforcement : Value}
    {checked : Audit.Checks × List RawAudit.Claim}
    (enforced : RawAudit.checkEnforcement crypto python (bundleResolvers artifacts manifests) env
      enforcement = .ok checked) :
    checked.1.reason.isNone = true ↔
      ExecutionHolds crypto python env.capabilityManifestHash enforcement
        (manifestNamed manifests env.capabilityManifestHash) := by
  have answers := (@checkEnforcement_answers_iff crypto python artifacts manifests env
    enforcement).mp ⟨checked, enforced⟩
  unfold RawAudit.checkEnforcement at enforced
  cases enforcement with
  | dict record =>
      rw [if_pos (show Audit.isDict (.dict record) = true from rfl),
        manifest_eq artifacts manifests (answers rfl).1] at enforced
      obtain ⟨answer, answered, enforced⟩ := (Checks.bind_ok_iff _ _ _).mp enforced
      cases answered
      obtain ⟨checks, executed, done⟩ := (Checks.bind_ok_iff _ _ _).mp enforced
      cases done
      exact checkExecution_ok executed
  | _ =>
      cases enforced
      simp [ExecutionHolds, Audit.isDict]

theorem checkDecomposition_answers_iff (env : RawEnvelope) (subtasks : Value)
    (checks : Audit.Checks) :
    Answers (RawAudit.checkDecomposition python (bundleResolvers artifacts manifests) env subtasks
        checks) ↔
      (subtasks.truthy = true → isHashable env.capabilityManifestHash = true) ∧
        Audit.DecompositionReadable python.toPython subtasks
          (manifestNamed manifests env.capabilityManifestHash) (checks.reason.isNone = true) := by
  unfold RawAudit.checkDecomposition
  by_cases any : subtasks.truthy = true
  · rw [if_pos any]
    by_cases hashable : isHashable env.capabilityManifestHash = true
    · rw [manifest_eq artifacts manifests hashable]
      have readable := @Audit.checkDecomposition_answers_iff python.toPython subtasks
        (manifestNamed manifests env.capabilityManifestHash) checks
      simpa [hashable, Answers] using readable
    · have raised := mt (manifest_answers_iff artifacts manifests _).mp hashable
      rw [Checks.answers_bind]
      constructor
      · rintro ⟨answer, answered, -⟩
        exact absurd ⟨answer, answered⟩ raised
      · intro readable
        exact absurd (readable.1 any) hashable
  · simp [any, Audit.DecompositionReadable]

theorem checkArtifact_answers_iff (env : RawEnvelope) (art : Bytes) :
    Answers (RawAudit.checkArtifact crypto python (bundleResolvers artifacts manifests) env art) ↔
      ArtifactReadable crypto python manifests env art := by
  unfold RawAudit.checkArtifact ArtifactReadable
  rw [Checks.answers_bind]
  apply exists_congr
  intro fields
  apply and_congr_right
  intro read
  rw [← @checkEnforcement_answers_iff crypto python artifacts manifests, Checks.answers_bind]
  constructor
  · rintro ⟨checked, enforced, rest⟩
    have reasons := checkEnforcement_ok enforced
    obtain ⟨result, decomposed, -⟩ := (Checks.answers_bind _ _).mp rest
    have readable := (checkDecomposition_answers_iff env _ checked.1).mp ⟨result, decomposed⟩
    rw [propext reasons] at readable
    exact ⟨⟨checked, enforced⟩, readable⟩
  · rintro ⟨⟨checked, enforced⟩, readable⟩
    have reasons := checkEnforcement_ok enforced
    rw [← propext reasons] at readable
    obtain ⟨result, decomposed⟩ := (checkDecomposition_answers_iff env _ checked.1).mpr readable
    refine ⟨checked, enforced, (Checks.answers_bind _ _).mpr ⟨result, decomposed, ?_⟩⟩
    exact Checks.answers_pure _

theorem announced_answers_iff (actions : Dict HashKey RawEnvelope) (env : RawEnvelope)
    (art : Option Bytes) :
    Answers (RawAudit.announced python (bundleResolvers artifacts manifests) actions env art) ↔
      ∀ bytes, art = some bytes → AnnouncementReadable python env bytes := by
  unfold AnnouncementReadable
  cases art with
  | none => simp [RawAudit.announced]
  | some bytes =>
      simp only [RawAudit.announced, Option.map_some, Option.some.injEq, forall_eq']
      cases parsed : python.loadsBytes bytes with
      | raises => simp
      | malformed => simp
      | document value =>
          cases value with
          | dict fields =>
              dsimp only
              by_cases any : (Audit.subtasksOf fields).truthy = true
              · rw [if_pos any]
                have named := manifest_answers_iff artifacts manifests env.capabilityManifestHash
                cases answered : (bundleResolvers artifacts manifests).manifest
                    env.capabilityManifestHash with
                | error fault =>
                    rw [answered] at named
                    simpa [bind, Except.bind, any] using named
                | ok answer =>
                    rw [answered] at named
                    simpa [bind, Except.bind, any] using named
              · simp [any]
          | _ => simp

theorem auditRow_answers_iff (actions : Dict HashKey RawEnvelope) (env : RawEnvelope) :
    Answers (RawAudit.auditRow crypto python (bundleResolvers artifacts manifests) true actions
        env) ↔
      HasPayload env ∧ isHashable env.outputHash = true ∧ (∃ text, env.agentPubkey = .str text) ∧
        RowReadable crypto python artifacts manifests env := by
  rw [← RawDag.computeEnvelopeHash_answers_iff, ← heldBy_answers_iff artifacts,
    ← RawDag.fromhexField_answers_iff]
  unfold RawAudit.auditRow
  apply Checks.answers_bind_of_forall
  intro hash _
  have resolver : (bundleResolvers artifacts manifests).artifact = heldBy artifacts := rfl
  rw [resolver]
  apply Checks.answers_bind_of_forall
  intro art found
  have hashable := (heldBy_answers_iff artifacts env.outputHash).mp ⟨art, found⟩
  have held : heldAt artifacts env.outputHash = art :=
    Except.ok.inj ((heldBy_eq artifacts hashable).symm.trans found)
  apply Checks.answers_bind_of_forall
  intro pubkey _
  have announcement := @announced_answers_iff python artifacts manifests actions env art
  unfold RowReadable
  rw [held]
  cases art with
  | none =>
      obtain ⟨claims, announced⟩ := announcement.mpr (by simp)
      rw [announced]
      simp [bind, Except.bind, RawAudit.checkBinding]
  | some bytes =>
      have bound : (some bytes).any
          (fun bytes => RawAudit.isText env.outputHash (crypto.hexdigest bytes)) =
            RawAudit.isText env.outputHash (crypto.hexdigest bytes) := rfl
      have checked := @checkArtifact_answers_iff crypto python artifacts manifests env bytes
      simp only [Option.some.injEq, forall_eq'] at announcement ⊢
      rw [← announcement, ← checked, bound]
      apply Checks.answers_bind_of_forall
      intro claims _
      rw [RawAudit.checkBinding]
      by_cases binding : RawAudit.isText env.outputHash (crypto.hexdigest bytes) = true
      · rw [if_pos binding]
        cases RawAudit.checkArtifact crypto python (bundleResolvers artifacts manifests) env bytes <;>
          simp [bind, Except.bind, binding]
      · rw [if_neg binding]
        simp [bind, Except.bind, binding]

variable (crypto python artifacts manifests) in
/-- What the audit needs of the envelopes of a bundle and their evidence. -/
structure AuditReadable (envelopes : List RawEnvelope) : Prop where
  payloads : ∀ env ∈ envelopes, HasPayload env
  keys : ∀ env ∈ envelopes, ∃ text, env.agentPubkey = .str text
  actions : ∀ env ∈ envelopes, isHashable env.actionId = true
  outputs : ∀ env ∈ envelopes, isHashable env.outputHash = true
  graph : RawDag.GraphReadable crypto python.toPython envelopes
  rows : ∀ env ∈ envelopes, RowReadable crypto python artifacts manifests env

theorem auditProvenance_readable_iff (envelopes : List RawEnvelope) :
    Answers (RawAudit.auditProvenance crypto python (bundleResolvers artifacts manifests) true true
        envelopes) ↔
      AuditReadable crypto python artifacts manifests envelopes := by
  have indexed : Answers (RawAudit.byAction envelopes) ↔
      ∀ env ∈ envelopes, isHashable env.actionId = true := by
    simp only [← hashKey_answers_iff]
    exact Checks.answers_foldlM (fun env : RawEnvelope => hashKey env.actionId)
      (fun dict key env => Dict.set dict key env) envelopes Dict.empty
  have audited : ∀ actions, Answers (envelopes.mapM (RawAudit.auditRow crypto python
      (bundleResolvers artifacts manifests) true actions)) ↔
        ∀ env ∈ envelopes, HasPayload env ∧ isHashable env.outputHash = true ∧
          (∃ text, env.agentPubkey = .str text) ∧
            RowReadable crypto python artifacts manifests env := by
    intro actions
    simp only [Checks.answers_mapM, auditRow_answers_iff]
  have chain : Answers (RawAudit.auditProvenance crypto python (bundleResolvers artifacts manifests)
      true true envelopes) ↔
        Answers (RawDag.verifyDag crypto python.toPython true envelopes) ∧
          Answers (RawAudit.byAction envelopes) ∧
            ∀ env ∈ envelopes, HasPayload env ∧ isHashable env.outputHash = true ∧
              (∃ text, env.agentPubkey = .str text) ∧
                RowReadable crypto python artifacts manifests env := by
    unfold RawAudit.auditProvenance
    apply Checks.answers_bind_of_forall
    intro dag _
    apply Checks.answers_bind_of_forall
    intro actions _
    rw [← audited actions, Checks.answers_bind]
    simp [Answers]
  rw [chain, indexed]
  constructor
  · rintro ⟨dag, actions, rows⟩
    have payloads := fun env member => (rows env member).1
    have outputs := fun env member => (rows env member).2.1
    have keys := fun env member => (rows env member).2.2.1
    exact ⟨payloads, keys, actions, outputs,
      (RawDag.verifyDag_answers_iff payloads keys outputs).mp dag,
      fun env member => (rows env member).2.2.2⟩
  · intro readable
    exact ⟨(RawDag.verifyDag_answers_iff readable.payloads readable.keys readable.outputs).mpr
      readable.graph, readable.actions, fun env member => ⟨readable.payloads env member,
        readable.outputs env member, readable.keys env member, readable.rows env member⟩⟩

end Rows

/-! The whole bundle. -/

/-- No exception but a `BundleError`. -/
def Judged {α : Type} (result : Except Failure α) : Prop := ∀ error, result ≠ .error (.escaped error)

/-- What `load_bundle` asks of a parsed object. -/
structure LoadShaped (bundle : Fields) : Prop where
  format : RawAudit.isText (dictGet bundle "format" .none) bundleFormat = true
  version : isNumber (dictGet bundle "version" .none) bundleVersion = true
  known : bundle.all (fun field => field.1 ∈ bundleKeys ++ bundleOptionalKeys) = true
  required : bundleKeys.all (fun key => (bundle.lookup key).isSome) = true
  envelopes : ∃ first rest, dictGet bundle "envelopes" .none = .collection .list (first :: rest)
  artifacts : Audit.isDict (dictGet bundle "artifacts" .none) = true
  manifests : Audit.isDict (dictGet bundle "manifests" .none) = true

section Bundle

variable (crypto : Crypto) (python : RawAudit.Python)

/-- The closure is an object and does not hold. -/
def ClosureBroken (bundle : Fields) (envelopes : List RawEnvelope) : Prop :=
  ∃ closure hashes, dictGet bundle "closure" .none = .dict closure ∧
    envelopes.mapM (RawDag.computeEnvelopeHash crypto python.toPython) = .ok hashes ∧
    (RawAudit.isText (dictGet closure "root" .none) (rootOf crypto hashes) = false ∨
      isNumber (dictGet closure "count" .none) (ordered hashes).length = false ∨
      (checkSignature crypto python.toPython closure).isSome = true)

/-- Every entry is an envelope and every artifact base64: then a closure needs canonical
payloads, and one that holds, or none, leaves the bundle to an audit that can read it. -/
def BundleReadable (bundle : Fields) : Prop :=
  ∀ items envelopes artifacts, dictGet bundle "envelopes" .none = .collection .list items →
    envelopesFrom 0 items = .ok envelopes →
    decodeArtifacts (dictGet bundle "artifacts" .none).fields = .ok artifacts →
    (Audit.isDict (dictGet bundle "closure" .none) = true → ∀ env ∈ envelopes, HasPayload env) ∧
      (ClosureBroken crypto python bundle envelopes ∨
        AuditReadable crypto python artifacts (dictGet bundle "manifests" .none).fields envelopes)

end Bundle

variable {crypto : Crypto} {python : RawAudit.Python}

theorem judged_ok {α : Type} (value : α) : Judged (.ok value : Except Failure α) := by
  rintro error ⟨⟩

theorem judged_refused {α : Type} (fault : BundleFault) :
    Judged (.error (.bundleError fault) : Except Failure α) := by
  rintro error ⟨⟩

theorem judged_escaped_iff {α : Type} (result : Except AuditError α) :
    Judged (Checks.wrap .escaped result) ↔ Answers result := by
  cases result with
  | error error => simp [Judged, Checks.wrap]
  | ok value => simp [Judged, Checks.wrap]

theorem judged_bind_escaped_iff {α β : Type} (result : Except AuditError α)
    (next : α → Except Failure β) :
    Judged (Checks.wrap .escaped result >>= next) ↔ ∃ value, result = .ok value ∧ Judged (next value) := by
  cases result with
  | error error => simp [Judged, Checks.wrap, bind, Except.bind]
  | ok value => simp [Judged, Checks.wrap, bind, Except.bind]

theorem judged_bind_refused_iff {α β : Type} (result : Except BundleFault α)
    (next : α → Except Failure β) :
    Judged (Checks.wrap .bundleError result >>= next) ↔
      ∀ value, result = .ok value → Judged (next value) := by
  cases result with
  | error fault => simp [Judged, Checks.wrap, bind, Except.bind]
  | ok value => simp [Judged, Checks.wrap, bind, Except.bind]

/-- A parsed object is refused, or it has the shape and is the bundle. -/
theorem loadBundle_object {python : Audit.Python} {data : Bytes} {obj : Fields}
    (parsed : python.loads data = .document (.dict obj)) :
    (∃ fault, loadBundle python data = .error (.bundleError fault) ∧ ¬LoadShaped obj) ∨
      loadBundle python data = .ok obj ∧ LoadShaped obj := by
  unfold loadBundle
  rw [parsed]
  dsimp only
  by_cases format : RawAudit.isText (dictGet obj "format" .none) bundleFormat = false
  · rw [if_pos format]
    exact Or.inl ⟨_, rfl, fun shaped => absurd (shaped.format.symm.trans format) (by decide)⟩
  rw [if_neg format]
  by_cases version : isNumber (dictGet obj "version" .none) bundleVersion = false
  · rw [if_pos version]
    exact Or.inl ⟨_, rfl, fun shaped => absurd (shaped.version.symm.trans version) (by decide)⟩
  rw [if_neg version]
  by_cases keys : obj.all (fun field => field.1 ∈ bundleKeys ++ bundleOptionalKeys) = false ∨
      bundleKeys.all (fun key => (obj.lookup key).isSome) = false
  · rw [if_pos keys]
    refine Or.inl ⟨_, rfl, fun shaped => ?_⟩
    obtain unknown | missing := keys
    · exact absurd (shaped.known.symm.trans unknown) (by decide)
    · exact absurd (shaped.required.symm.trans missing) (by decide)
  rw [if_neg keys]
  rw [Bool.not_eq_false] at format version
  rw [not_or, Bool.not_eq_false, Bool.not_eq_false] at keys
  split
  · next first rest held =>
    split_ifs with objects
    · refine Or.inl ⟨_, rfl, fun shaped => ?_⟩
      obtain artifacts | manifests := objects
      · exact absurd (shaped.artifacts.symm.trans artifacts) (by decide)
      · exact absurd (shaped.manifests.symm.trans manifests) (by decide)
    · rw [not_or, Bool.not_eq_false, Bool.not_eq_false] at objects
      exact Or.inr ⟨rfl, format, version, keys.1, keys.2, ⟨first, rest, held⟩, objects.1, objects.2⟩
  · next others =>
    refine Or.inl ⟨_, rfl, fun shaped => ?_⟩
    obtain ⟨first, rest, held⟩ := shaped.envelopes
    exact others first rest held

theorem loadBundle_ok_iff (python : Audit.Python) (data : Bytes) (bundle : Fields) :
    loadBundle python data = .ok bundle ↔
      python.loads data = .document (.dict bundle) ∧ LoadShaped bundle := by
  constructor
  · intro loaded
    cases parsed : python.loads data with
    | raises => simp [loadBundle, parsed] at loaded
    | malformed => simp [loadBundle, parsed] at loaded
    | document value =>
        cases value with
        | dict obj =>
            obtain ⟨fault, refused, -⟩ | ⟨accepted, shaped⟩ := loadBundle_object parsed
            · cases loaded.symm.trans refused
            · cases loaded.symm.trans accepted
              exact ⟨rfl, shaped⟩
        | _ => simp [loadBundle, parsed] at loaded
  · rintro ⟨parsed, shaped⟩
    obtain ⟨fault, -, misshaped⟩ | ⟨accepted, -⟩ := loadBundle_object parsed
    · exact absurd shaped misshaped
    · exact accepted

theorem loadBundle_judged_iff (python : Audit.Python) (data : Bytes) :
    Judged (loadBundle python data) ↔ python.loads data ≠ .raises := by
  cases parsed : python.loads data with
  | raises => simp [loadBundle, parsed, Judged]
  | malformed => simp [loadBundle, parsed, Judged]
  | document value =>
      cases value with
      | dict obj =>
          obtain ⟨fault, refused, -⟩ | ⟨accepted, -⟩ := loadBundle_object parsed
          · simp [refused, judged_refused]
          · simp [accepted, judged_ok]
      | _ => simp [loadBundle, parsed, Judged]

/-- The entries that are envelopes hash as their envelopes do. -/
theorem hashes_envelopesFrom {i : Nat} {items : List Value} {envelopes : List RawEnvelope}
    (read : envelopesFrom i items = .ok envelopes) :
    items.mapM (hashOf crypto python.toPython) =
      envelopes.mapM (RawDag.computeEnvelopeHash crypto python.toPython) := by
  induction items generalizing i envelopes with
  | nil =>
      cases read
      rfl
  | cons item rest ih =>
      cases item with
      | dict d =>
          rw [envelopesFrom] at read
          cases built : RawEnvelope.ofFields d with
          | none => simp [built] at read
          | some env =>
              rw [built] at read
              obtain ⟨others, later, rfl⟩ := (Checks.map_ok_iff _ _ _).mp read
              rw [List.mapM_cons, List.mapM_cons, ih later, hashOf, built]
      | _ => cases read

section Judging

variable {bundle : Fields} {items : List Value} {envelopes : List RawEnvelope}

theorem envelopeItems_shaped (shaped : dictGet bundle "envelopes" .none = .collection .list items) :
    envelopeItems bundle = .ok items := by
  have present := lookup_of_dictGet shaped (by simp)
  rw [envelopeItems, dictGet, present]
  rfl

theorem verifyClosure_answers_iff (held : dictGet bundle "envelopes" .none = .collection .list items)
    (read : envelopesFrom 0 items = .ok envelopes) :
    Answers (verifyClosure crypto python.toPython bundle) ↔
      (Audit.isDict (dictGet bundle "closure" .none) = true → ∀ env ∈ envelopes, HasPayload env) := by
  have hashed : Answers (hashesOf crypto python.toPython bundle) ↔ ∀ env ∈ envelopes, HasPayload env := by
    rw [hashesOf, envelopeItems_shaped held]
    dsimp only [bind, Except.bind]
    rw [hashes_envelopesFrom read, Checks.answers_mapM]
    simp only [RawDag.computeEnvelopeHash_answers_iff]
  unfold verifyClosure
  cases dictGet bundle "closure" .none with
  | dict closure =>
      simp only [Audit.isDict, forall_const]
      rw [← hashed, Checks.answers_bind]
      constructor
      · rintro ⟨hashes, answered, -⟩
        exact ⟨hashes, answered⟩
      · rintro ⟨hashes, answered⟩
        refine ⟨hashes, answered, ?_⟩
        split_ifs
        · exact Checks.answers_pure _
        · cases checkSignature crypto python.toPython closure with
          | none => exact Checks.answers_pure _
          | some fault => exact Checks.answers_pure _
  | _ => simp [Audit.isDict]

/-- The verdict on the closure refuses the bundle exactly when the closure is broken. -/
theorem verifyClosure_broken_iff (held : dictGet bundle "envelopes" .none = .collection .list items)
    (read : envelopesFrom 0 items = .ok envelopes) {status : ClosureStatus}
    (verified : verifyClosure crypto python.toPython bundle = .ok status) :
    (status.asserted = true ∧ status.valid = false) ↔ ClosureBroken crypto python bundle envelopes := by
  unfold verifyClosure at verified
  unfold ClosureBroken
  cases recorded : dictGet bundle "closure" .none with
  | dict closure =>
      rw [recorded] at verified
      obtain ⟨hashes, answered, verdict⟩ := (Checks.bind_ok_iff _ _ _).mp verified
      rw [hashesOf, envelopeItems_shaped held] at answered
      have hashed : envelopes.mapM (RawDag.computeEnvelopeHash crypto python.toPython) = .ok hashes :=
        (hashes_envelopesFrom read).symm.trans answered
      have only : (∃ record hashes, (Value.dict closure = .dict record) ∧
          envelopes.mapM (RawDag.computeEnvelopeHash crypto python.toPython) = .ok hashes ∧
          (RawAudit.isText (dictGet record "root" .none) (rootOf crypto hashes) = false ∨
            isNumber (dictGet record "count" .none) (ordered hashes).length = false ∨
            (checkSignature crypto python.toPython record).isSome = true)) ↔
          (RawAudit.isText (dictGet closure "root" .none) (rootOf crypto hashes) = false ∨
            isNumber (dictGet closure "count" .none) (ordered hashes).length = false ∨
            (checkSignature crypto python.toPython closure).isSome = true) := by
        simp [hashed]
      rw [only]
      dsimp only at verdict
      split_ifs at verdict with changed
      · cases verdict
        simp only [true_and, true_iff]
        exact changed.elim Or.inl (fun counted => Or.inr (Or.inl counted))
      · rw [not_or] at changed
        cases signed : checkSignature crypto python.toPython closure with
        | none =>
            rw [signed] at verdict
            cases verdict
            simp [changed.1, changed.2]
        | some fault =>
            rw [signed] at verdict
            cases verdict
            simp
  | _ =>
      rw [recorded] at verified
      cases verified
      simp

/-- Past the envelopes and the artifacts: the closure, then the audit. -/
theorem verdict_judged_iff (held : dictGet bundle "envelopes" .none = .collection .list items)
    (read : envelopesFrom 0 items = .ok envelopes) (artifacts : List (String × Bytes)) :
    Judged (do
        let status ← Checks.wrap .escaped (verifyClosure crypto python.toPython bundle)
        if status.asserted = true ∧ status.valid = false then
          throw (.bundleError (.closure status.reason))
        else
          Checks.wrap .escaped (RawAudit.auditProvenance crypto python
            (bundleResolvers artifacts (dictGet bundle "manifests" .none).fields) true true
            envelopes)) ↔
      (Audit.isDict (dictGet bundle "closure" .none) = true → ∀ env ∈ envelopes, HasPayload env) ∧
        (ClosureBroken crypto python bundle envelopes ∨
          AuditReadable crypto python artifacts (dictGet bundle "manifests" .none).fields
            envelopes) := by
  rw [judged_bind_escaped_iff, ← verifyClosure_answers_iff held read]
  constructor
  · rintro ⟨status, verified, judged⟩
    refine ⟨⟨status, verified⟩, ?_⟩
    rw [← verifyClosure_broken_iff held read verified]
    split_ifs at judged with broken
    · exact Or.inl broken
    · rw [judged_escaped_iff, auditProvenance_readable_iff] at judged
      exact Or.inr judged
  · rintro ⟨⟨status, verified⟩, judged⟩
    refine ⟨status, verified, ?_⟩
    rw [← verifyClosure_broken_iff held read verified] at judged
    split_ifs with broken
    · exact judged_refused _
    · rw [judged_escaped_iff, auditProvenance_readable_iff]
      exact judged.resolve_left broken

theorem verifyBundle_judged_iff (crypto : Crypto) (python : RawAudit.Python) {bundle : Fields}
    (shaped : LoadShaped bundle) :
    Judged (verifyBundle crypto python bundle) ↔ BundleReadable crypto python bundle := by
  obtain ⟨first, rest, held⟩ := shaped.envelopes
  have envelopes : envelopesOf bundle =
      Checks.wrap .bundleError (envelopesFrom 0 (first :: rest)) := by
    rw [envelopesOf, envelopeItems_shaped held]
    rfl
  unfold BundleReadable verifyBundle
  rw [envelopes, judged_bind_refused_iff]
  simp only [judged_bind_refused_iff]
  constructor
  · intro judged items envelopes artifacts same read decoded
    cases held.symm.trans same
    exact (verdict_judged_iff held read artifacts).mp (judged envelopes read artifacts decoded)
  · intro readable envelopes read artifacts decoded
    exact (verdict_judged_iff held read artifacts).mpr
      (readable _ envelopes artifacts held read decoded)

end Judging

end Evidence

namespace Sample

/-- The producer wrote a number where the key belongs. -/
def numberedDoc : Doc Float :=
  .obj [("format", .str "gyza-evidence-bundle"), ("version", .int 1), ("intent_id", .str "intent-1"),
    ("runner", .obj []), ("envelopes", .arr [.obj [("intent_id", .str "intent-1"),
      ("action_id", .str "action-1"), ("agent_pubkey", .int 5),
      ("capability_manifest_hash", .str "manifest"), ("input_hashes", .arr [.str "input"]),
      ("output_hash", .str "output"), ("parent_envelope_hash", .null), ("timestamp_ns", .int 1000),
      ("inference_backend", .str "mock"), ("model_identifier", .str "mock"), ("duration_ms", .int 5),
      ("tokens_in", .int 3), ("tokens_out", .int 4), ("schema_version", .int 1),
      ("signature", .str "")]]), ("artifacts", .obj []), ("manifests", .obj [])]

def numberedEnvelope : RawEnvelope where
  intentId := .str "intent-1"
  actionId := .str "action-1"
  agentPubkey := .int 5
  capabilityManifestHash := .str "manifest"
  inputHashes := .collection .list [.str "input"]
  outputHash := .str "output"
  parentEnvelopeHash := .none
  timestampNs := .int 1000
  inferenceBackend := .str "mock"
  modelIdentifier := .str "mock"
  durationMs := .int 5
  tokensIn := .int 3
  tokensOut := .int 4

def numberedData : Bytes := utf8 (Doc.dumps bitFloats.repr numberedDoc)

end Sample

end Gyza

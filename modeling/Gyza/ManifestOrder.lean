import Gyza.RawAudit
import Gyza.Lib.KeyOrder
import Gyza.Lib.Checks

/-! What the audit reads of a manifest does not depend on the order of its keys, the texts
of path entries apart. -/

namespace Gyza

open CanonJson (Doc)
open Hex (Bytes utf8)
open PyValue (Fields Value dictGet subDict)
open PyValue.Value (sortedDict isJson_dict_iff)
open Audit (AuditError toDoc itemsToDoc fieldsToDoc)

namespace RawAudit

/-! Documents. -/

theorem fieldsToDoc_eq {fields : Fields} {documents : List (String × Doc Float)}
    (converted : fieldsToDoc fields = some documents) :
    (∀ field ∈ fields, (toDoc field.2).isSome = true) ∧
      documents = fields.map (fun field => (field.1, (toDoc field.2).getD .null)) := by
  induction fields generalizing documents with
  | nil =>
      cases converted
      simp
  | cons field rest ih =>
      obtain ⟨name, value⟩ := field
      simp only [fieldsToDoc, Option.bind_eq_bind, Option.bind_eq_some_iff, Option.pure_def,
        Option.some.injEq] at converted
      obtain ⟨first, converts, others, later, rfl⟩ := converted
      obtain ⟨all, rfl⟩ := ih later
      refine ⟨?_, by simp [converts]⟩
      rw [List.forall_mem_cons]
      exact ⟨by simp [converts], all⟩

theorem fieldsToDoc_map {fields : Fields}
    (all : ∀ field ∈ fields, (toDoc field.2).isSome = true) :
    fieldsToDoc fields =
      some (fields.map (fun field => (field.1, (toDoc field.2).getD .null))) := by
  induction fields with
  | nil => rfl
  | cons field rest ih =>
      obtain ⟨name, value⟩ := field
      obtain ⟨document, converts⟩ := Option.isSome_iff_exists.mp (all _ List.mem_cons_self)
      rw [List.forall_mem_cons] at all
      simp [fieldsToDoc, converts, ih all.2]

/-- A dictionary is converted field by field, whatever their order. -/
theorem fieldsToDoc_sortFields {fields : Fields} {documents : List (String × Doc Float)}
    (distinct : (fields.map Prod.fst).Nodup) (converted : fieldsToDoc fields = some documents) :
    fieldsToDoc (Doc.sortFields fields) = some (Doc.sortFields documents) := by
  obtain ⟨all, rfl⟩ := fieldsToDoc_eq converted
  have perm := Doc.sortFields_perm distinct
  rw [fieldsToDoc_map (fun field member => all field (perm.mem_iff.mp member)),
    Doc.sortFields_map (fun value => (toDoc value).getD .null)]

mutual
theorem toDoc_sorted (value : Value) (json : value.isJson = true) :
    ∃ document, toDoc value = some document ∧ toDoc value.sorted = some document.normal := by
  match value with
  | .none => exact ⟨_, rfl, rfl⟩
  | .bool _ => exact ⟨_, rfl, rfl⟩
  | .int _ => exact ⟨_, rfl, rfl⟩
  | .str _ => exact ⟨_, rfl, rfl⟩
  | .float value =>
      have finite : value.isFinite = true := json
      exact ⟨.float value, by rw [toDoc, if_pos finite],
        by rw [show (Value.float value).sorted = .float value from rfl, toDoc, if_pos finite]; rfl⟩
  | .collection .list items =>
      obtain ⟨documents, converts, sorted⟩ := itemsToDoc_sorted items json
      exact ⟨.arr documents, by rw [toDoc, converts]; rfl,
        by rw [Value.sorted, toDoc, sorted]; rfl⟩
  | .dict fields =>
      have distinct := ((isJson_dict_iff fields).mp json).1
      have each : Value.fieldsJson fields = true := by
        rw [Value.isJson, Bool.and_eq_true] at json
        exact json.2
      obtain ⟨documents, converts, sorted⟩ := fieldsToDoc_sorted fields each
      refine ⟨.obj documents, by rw [toDoc, converts]; rfl, ?_⟩
      rw [Value.sorted_dict, toDoc, sortedDict,
        fieldsToDoc_sortFields (Value.nodup_sortedFields distinct) sorted]
      rfl
theorem itemsToDoc_sorted (items : List Value) (json : Value.itemsJson items = true) :
    ∃ documents, itemsToDoc items = some documents ∧
      itemsToDoc (Value.sortedItems items) = some (Doc.normalItems documents) := by
  match items with
  | [] => exact ⟨[], rfl, rfl⟩
  | item :: rest =>
      rw [Value.itemsJson, Bool.and_eq_true] at json
      obtain ⟨document, converts, sorted⟩ := toDoc_sorted item json.1
      obtain ⟨documents, others, sortedOthers⟩ := itemsToDoc_sorted rest json.2
      exact ⟨document :: documents, by simp [itemsToDoc, converts, others],
        by simp [Value.sortedItems, itemsToDoc, sorted, sortedOthers, Doc.normalItems]⟩
theorem fieldsToDoc_sorted (fields : Fields) (json : Value.fieldsJson fields = true) :
    ∃ documents, fieldsToDoc fields = some documents ∧
      fieldsToDoc (Value.sortedFields fields) = some (Doc.normalFields documents) := by
  match fields with
  | [] => exact ⟨[], rfl, rfl⟩
  | (name, value) :: rest =>
      rw [Value.fieldsJson, Bool.and_eq_true] at json
      obtain ⟨document, converts, sorted⟩ := toDoc_sorted value json.1
      obtain ⟨documents, others, sortedOthers⟩ := fieldsToDoc_sorted rest json.2
      exact ⟨(name, document) :: documents, by simp [fieldsToDoc, converts, others],
        by simp [Value.sortedFields, fieldsToDoc, sorted, sortedOthers, Doc.normalFields]⟩
end

variable {crypto : Crypto} {python : Audit.Python}

theorem manifestHashHex_sorted {manifest : Fields} (json : (Value.dict manifest).isJson = true) :
    Audit.manifestHashHex crypto python (sortedDict manifest) =
      Audit.manifestHashHex crypto python manifest := by
  obtain ⟨document, converts, sorted⟩ := toDoc_sorted _ json
  rw [Value.sorted_dict] at sorted
  rw [Audit.manifestHashHex, Audit.manifestHashHex, converts, sorted, Option.map_some,
    Option.map_some, Doc.normal_normal]

/-! Blocks. -/

theorem isJson_nil : (Value.dict []).isJson = true := by simp [isJson_dict_iff]

theorem blockOf_sorted {fields : Fields} (json : (Value.dict fields).isJson = true) (key : String) :
    Audit.blockOf (sortedDict fields) key = (Audit.blockOf fields key).map sortedDict := by
  have distinct := ((isJson_dict_iff fields).mp json).1
  have found : dictGet (sortedDict fields) key (.dict []) = (dictGet fields key (.dict [])).sorted :=
    Value.dictGet_sorted distinct key (.dict [])
  have plain := Value.isJson_dictGet json key isJson_nil
  rw [Audit.blockOf, Audit.blockOf, found, Value.truthy_sorted plain]
  split_ifs
  · cases dictGet fields key (.dict []) <;> rfl
  · rfl

theorem isJson_blockOf {fields inner : Fields} {key : String}
    (json : (Value.dict fields).isJson = true) (block : Audit.blockOf fields key = .ok inner) :
    (Value.dict inner).isJson = true := by
  have plain := Value.isJson_dictGet json key isJson_nil
  unfold Audit.blockOf at block
  split_ifs at block
  · split at block
    next held =>
      cases block
      rwa [held] at plain
    next => cases block
  · cases block
    exact isJson_nil

theorem toInt_sorted (value : Value) : Audit.toInt python value.sorted = Audit.toInt python value := by
  cases value with
  | collection kind items => rfl
  | dict fields => rfl
  | _ => rfl

theorem maxChildren_sorted {budget : Fields} (json : (Value.dict budget).isJson = true) :
    Audit.maxChildren python (sortedDict budget) = Audit.maxChildren python budget := by
  have distinct := ((isJson_dict_iff budget).mp json).1
  have found : dictGet (sortedDict budget) "max_children" (.int 0) =
      (dictGet budget "max_children" (.int 0)).sorted :=
    Value.dictGet_sorted distinct "max_children" (.int 0)
  have plain := @Value.isJson_dictGet budget json "max_children" (.int 0) rfl
  rw [Audit.maxChildren, Audit.maxChildren, found, Value.truthy_sorted plain, toInt_sorted]

theorem truthy_dictGet_sorted {fields : Fields} (json : (Value.dict fields).isJson = true)
    (key : String) :
    (dictGet (sortedDict fields) key .none).truthy = (dictGet fields key .none).truthy := by
  have found : dictGet (sortedDict fields) key .none = (dictGet fields key .none).sorted :=
    Value.dictGet_sorted ((isJson_dict_iff fields).mp json).1 key .none
  rw [found, Value.truthy_sorted (Value.isJson_dictGet json key rfl)]

theorem spawnGrant_sorted {manifest : Fields} (json : (Value.dict manifest).isJson = true) :
    Audit.spawnGrant python (sortedDict manifest) = Audit.spawnGrant python manifest := by
  unfold Audit.spawnGrant
  rw [blockOf_sorted json]
  cases held : Audit.blockOf manifest "capabilities" with
  | error fault => rfl
  | ok capabilities =>
      have json := isJson_blockOf json held
      dsimp only [Except.map, bind, Except.bind]
      rw [blockOf_sorted json]
      cases held : Audit.blockOf capabilities "spawn" with
      | error fault => rfl
      | ok spawn =>
          have json := isJson_blockOf json held
          dsimp only [Except.map]
          rw [blockOf_sorted json, truthy_dictGet_sorted json]
          cases held : Audit.blockOf spawn "resource_budget" with
          | error fault => rfl
          | ok budget =>
              dsimp only [Except.map]
              rw [maxChildren_sorted (isJson_blockOf json held)]

theorem decompositionWithin_sorted {manifest : Fields} (json : (Value.dict manifest).isJson = true)
    (artifact : Fields) :
    decompositionWithin python artifact (some (sortedDict manifest)) =
      decompositionWithin python artifact (some manifest) := by
  unfold decompositionWithin
  dsimp only [Option.getD]
  split_ifs
  · rfl
  · rw [blockOf_sorted json]
    cases held : Audit.blockOf manifest "capabilities" with
    | error fault => rfl
    | ok capabilities =>
        have json := isJson_blockOf json held
        dsimp only [Except.map, bind, Except.bind]
        rw [blockOf_sorted json]
        cases held : Audit.blockOf capabilities "spawn" with
        | error fault => rfl
        | ok spawn =>
            have json := isJson_blockOf json held
            dsimp only [Except.map]
            rw [blockOf_sorted json, truthy_dictGet_sorted json]
            split_ifs
            · rfl
            · cases held : Audit.blockOf spawn "resource_budget" with
              | error fault => rfl
              | ok budget =>
                  dsimp only [Except.map]
                  rw [maxChildren_sorted (isJson_blockOf json held)]

/-! The gate. -/

theorem isJson_subDict {fields : Fields} (json : (Value.dict fields).isJson = true) (key : String) :
    (Value.dict (subDict fields key)).isJson = true := by
  have parts := (isJson_dict_iff fields).mp json
  unfold subDict
  split
  next inner found => exact parts.2 (key, _) ((Doc.mem_lookup parts.1 key _).mp found)
  next => exact isJson_nil

theorem subDict_sorted {fields : Fields} (json : (Value.dict fields).isJson = true) (key : String) :
    subDict (sortedDict fields) key = sortedDict (subDict fields key) := by
  rw [subDict, subDict, Value.lookup_sorted ((isJson_dict_iff fields).mp json).1]
  cases fields.lookup key with
  | none => rfl
  | some value => cases value <;> rfl

theorem isJson_manifestBlock {manifest : Fields} (json : (Value.dict manifest).isJson = true)
    (name : String) : (Value.dict (manifestBlock (.dict manifest) name)).isJson = true :=
  isJson_subDict (isJson_subDict json "capabilities") name

theorem manifestBlock_sorted {manifest : Fields} (json : (Value.dict manifest).isJson = true)
    (name : String) :
    manifestBlock (.dict (sortedDict manifest)) name =
      sortedDict (manifestBlock (.dict manifest) name) := by
  calc
    manifestBlock (.dict (sortedDict manifest)) name =
        subDict (subDict (sortedDict manifest) "capabilities") name := rfl
    _ = subDict (sortedDict (subDict manifest "capabilities")) name := by rw [subDict_sorted json]
    _ = sortedDict (manifestBlock (.dict manifest) name) :=
      subDict_sorted (isJson_subDict json "capabilities") name

theorem manifestPaths_sorted {manifest : Fields} (json : (Value.dict manifest).isJson = true)
    (key : String) :
    manifestPaths (.dict (sortedDict manifest)) key = (manifestPaths (.dict manifest) key).sorted := by
  rw [manifestPaths, manifestBlock_sorted json]
  exact Value.dictGet_sorted ((isJson_dict_iff _).mp (isJson_manifestBlock json "filesystem")).1 key
    Value.emptyList

/-- The texts of the path entries do not change when keys are sorted. -/
def PathsKeepText (str : Value → String) (manifest : Fields) : Prop :=
  ∀ key ∈ ["read", "write"], ∀ items, (manifestPaths (.dict manifest) key).iterate = some items →
    ∀ path ∈ items, str path.sorted = str path

theorem pathSet_sorted {str : Value → String} {items : List Value}
    (json : ∀ path ∈ items, path.isJson = true) (keep : ∀ path ∈ items, str path.sorted = str path) :
    pathSet str (items.map Value.sorted) = pathSet str items := by
  ext text
  simp only [pathSet, List.mem_toFinset, List.mem_map, List.mem_filter]
  constructor
  · rintro ⟨_, ⟨⟨path, member, rfl⟩, truthy⟩, rfl⟩
    exact ⟨path, ⟨member, by rwa [Value.truthy_sorted (json path member)] at truthy⟩,
      (keep path member).symm⟩
  · rintro ⟨path, ⟨member, truthy⟩, rfl⟩
    exact ⟨path.sorted, ⟨⟨path, member, rfl⟩, by rwa [Value.truthy_sorted (json path member)]⟩,
      keep path member⟩

/-- What a path list grants, its order aside. -/
theorem iterate_sorted {str : Value → String} {value : Value} (json : value.isJson = true)
    (keep : ∀ items, value.iterate = some items → ∀ path ∈ items, str path.sorted = str path) :
    value.sorted.iterate.map (pathSet str) = value.iterate.map (pathSet str) := by
  cases value with
  | collection kind items =>
      have plain : ∀ path ∈ items, path.isJson = true := by
        cases kind with
        | list => exact (Value.itemsJson_iff items).mp json
        | _ => cases json
      rw [Value.sorted, Value.sortedItems_eq_map]
      exact congrArg some (pathSet_sorted plain (keep items rfl))
  | dict fields =>
      have perm := Value.sortedDict_perm ((isJson_dict_iff fields).mp json).1
      have keys : ((sortedDict fields).map (fun field => Value.str field.1)).Perm
          (fields.map (fun field => Value.str field.1)) := by
        simpa [List.map_map, Function.comp_def] using perm.map (fun field => Value.str field.1)
      exact congrArg some (List.toFinset_eq_of_perm _ _ ((keys.filter Value.truthy).map str))
  | _ => rfl

theorem satisfiesBounds_eq (str : Value → String) (enf : Fields) (roPaths rwPaths : List Value)
    (manifest : Fields) :
    satisfiesBounds str enf roPaths rwPaths (.dict manifest) =
      match (manifestPaths (.dict manifest) "read").iterate.map (pathSet str),
        (manifestPaths (.dict manifest) "write").iterate.map (pathSet str) with
      | some read, some write => .ok (checkBounds enf (.dict manifest) read write
          (pathSet str roPaths) (pathSet str rwPaths))
      | _, _ => .error .typeError := by
  unfold satisfiesBounds
  dsimp only
  cases (manifestPaths (.dict manifest) "read").iterate with
  | none => rfl
  | some read =>
      cases (manifestPaths (.dict manifest) "write").iterate with
      | none => rfl
      | some write => rfl

theorem isJson_manifestPaths {manifest : Fields} (json : (Value.dict manifest).isJson = true)
    (key : String) : (manifestPaths (.dict manifest) key).isJson = true :=
  Value.isJson_dictGet (isJson_manifestBlock json "filesystem") key rfl

theorem checkBounds_sorted {manifest : Fields} (json : (Value.dict manifest).isJson = true)
    (enf : Fields) (authRo authRw enfRo enfRw : Finset String) :
    checkBounds enf (.dict (sortedDict manifest)) authRo authRw enfRo enfRw =
      checkBounds enf (.dict manifest) authRo authRw enfRo enfRw := by
  have hosts : (allowedHosts (.dict (sortedDict manifest))).truthy =
      (allowedHosts (.dict manifest)).truthy := by
    rw [allowedHosts, manifestBlock_sorted json]
    exact truthy_dictGet_sorted (isJson_manifestBlock json "network") "allowed_hosts"
  have spawn := isJson_manifestBlock json "spawn"
  have limit : resourceBudget (.dict (sortedDict manifest)) "memory_limit_mb" =
      (resourceBudget (.dict manifest) "memory_limit_mb").sorted := by
    rw [resourceBudget, manifestBlock_sorted json, subDict_sorted spawn]
    exact Value.dictGet_sorted ((isJson_dict_iff _).mp (isJson_subDict spawn "resource_budget")).1
      "memory_limit_mb" .none
  have memory : ∀ bound, checkMemory bound (resourceBudget (.dict manifest) "memory_limit_mb").sorted =
      checkMemory bound (resourceBudget (.dict manifest) "memory_limit_mb") := by
    intro bound
    rw [checkMemory, checkMemory, Value.positiveInt_sorted]
  rw [checkBounds, checkBounds, hosts, limit, memory]

theorem gate_sorted {str : Value → String} {manifest : Fields}
    (json : (Value.dict manifest).isJson = true) (keep : PathsKeepText str manifest)
    (enforcement : Value) :
    enforcementSatisfiesManifest str enforcement (.dict (sortedDict manifest)) =
      enforcementSatisfiesManifest str enforcement (.dict manifest) := by
  have read := iterate_sorted (isJson_manifestPaths json "read") (keep "read" (by simp))
  have write := iterate_sorted (isJson_manifestPaths json "write") (keep "write" (by simp))
  have bounds : ∀ enf roPaths rwPaths,
      satisfiesBounds str enf roPaths rwPaths (.dict (sortedDict manifest)) =
        satisfiesBounds str enf roPaths rwPaths (.dict manifest) := by
    intro enf roPaths rwPaths
    rw [satisfiesBounds_eq, satisfiesBounds_eq, manifestPaths_sorted json,
      manifestPaths_sorted json, read, write]
    simp only [checkBounds_sorted json]
  cases enforcement with
  | dict enf => simp only [enforcementSatisfiesManifest, bounds]
  | _ => rfl

/-! Audits that are answered alike. -/

section Alike

variable (crypto : Crypto) (python : Python)

/-- Two manifests that no check can tell apart. -/
structure SameManifest (manifest other : Fields) : Prop where
  hash : Audit.manifestHashHex crypto python.toPython manifest =
    Audit.manifestHashHex crypto python.toPython other
  grant : Audit.spawnGrant python.toPython manifest = Audit.spawnGrant python.toPython other
  within : ∀ artifact, decompositionWithin python.toPython artifact (some manifest) =
    decompositionWithin python.toPython artifact (some other)
  gate : ∀ enforcement, enforcementSatisfiesManifest python.str enforcement (.dict manifest) =
    enforcementSatisfiesManifest python.str enforcement (.dict other)

inductive SameAnswer : Except AuditError (Option Fields) → Except AuditError (Option Fields) → Prop where
  | error (fault : AuditError) : SameAnswer (.error fault) (.error fault)
  | absent : SameAnswer (.ok none) (.ok none)
  | held (manifest other : Fields) (same : SameManifest crypto python manifest other) :
      SameAnswer (.ok (some manifest)) (.ok (some other))

variable {crypto python}

theorem SameManifest.refl (manifest : Fields) : SameManifest crypto python manifest manifest :=
  ⟨rfl, rfl, fun _ => rfl, fun _ => rfl⟩

theorem SameManifest.sorted {manifest : Fields} (json : (Value.dict manifest).isJson = true)
    (keep : PathsKeepText python.str manifest) :
    SameManifest crypto python (sortedDict manifest) manifest :=
  ⟨manifestHashHex_sorted json, spawnGrant_sorted json, decompositionWithin_sorted json,
    gate_sorted json keep⟩

theorem SameAnswer.refl (answer : Except AuditError (Option Fields)) :
    SameAnswer crypto python answer answer := by
  match answer with
  | .error fault => exact .error fault
  | .ok none => exact .absent
  | .ok (some manifest) => exact .held manifest manifest (.refl manifest)

/-- What a row and its claims come to, once the claims are verified. -/
def judged {α : Type} (crypto : Crypto) (python : Python) (row : α × List Claim) :
    α × List ClaimVerdict := (row.1, verifyAll crypto python.toPython row.2)

theorem verifyAll_append (claims later : List Claim) :
    verifyAll crypto python.toPython (claims ++ later) =
      verifyAll crypto python.toPython claims ++ verifyAll crypto python.toPython later :=
  List.map_append

variable {resolvers other : Resolvers} {env : RawEnvelope}

theorem announced_alike (alike : SameAnswer crypto python
      (resolvers.manifest env.capabilityManifestHash) (other.manifest env.capabilityManifestHash))
    (actions : Dict HashKey RawEnvelope) (art : Option Bytes) :
    (announced python resolvers actions env art).map (verifyAll crypto python.toPython) =
      (announced python other actions env art).map (verifyAll crypto python.toPython) := by
  unfold announced
  split
  next artifact parsed =>
    by_cases announces : (Audit.subtasksOf artifact).truthy = true
    · rw [if_pos announces, if_pos announces]
      generalize resolvers.manifest env.capabilityManifestHash = answer at alike
      generalize other.manifest env.capabilityManifestHash = answer' at alike
      cases alike with
      | error fault => rfl
      | absent => rfl
      | held manifest other same =>
          simp [bind, Except.bind, pure, Except.pure, Except.map, verifyAll, Claim.type,
            Claim.verify, same.within]
    · rw [if_neg announces, if_neg announces]
  next => rfl
  next => rfl

theorem checkEnforcement_alike (alike : SameAnswer crypto python
      (resolvers.manifest env.capabilityManifestHash) (other.manifest env.capabilityManifestHash))
    (enforcement : Value) :
    (checkEnforcement crypto python resolvers env enforcement).map (judged crypto python) =
      (checkEnforcement crypto python other env enforcement).map (judged crypto python) := by
  unfold checkEnforcement
  split_ifs
  · generalize resolvers.manifest env.capabilityManifestHash = answer at alike
    generalize other.manifest env.capabilityManifestHash = answer' at alike
    cases alike with
    | error fault => rfl
    | absent => rfl
    | held manifest other same =>
        have checks : checkExecution crypto python env.capabilityManifestHash enforcement
            (some manifest) =
              checkExecution crypto python env.capabilityManifestHash enforcement (some other) := by
          simp only [checkExecution, same.hash, same.gate]
        dsimp only [bind, Except.bind]
        rw [checks]
        cases checkExecution crypto python env.capabilityManifestHash enforcement (some other) with
        | error fault => rfl
        | ok checks =>
            simp [pure, Except.pure, Except.map, judged, executionClaims, verifyAll, Claim.type,
              Claim.verify, same.hash, same.gate]
  · rfl

theorem checkDecomposition_alike (alike : SameAnswer crypto python
      (resolvers.manifest env.capabilityManifestHash) (other.manifest env.capabilityManifestHash))
    (subtasks : Value) (checks : Audit.Checks) :
    checkDecomposition python resolvers env subtasks checks =
      checkDecomposition python other env subtasks checks := by
  unfold checkDecomposition
  split_ifs
  · generalize resolvers.manifest env.capabilityManifestHash = answer at alike
    generalize other.manifest env.capabilityManifestHash = answer' at alike
    cases alike with
    | error fault => rfl
    | absent => rfl
    | held manifest other same =>
        simp only [bind, Except.bind, Audit.checkDecomposition, same.grant]
  · rfl

/-- A chain whose first result is only read through a view. -/
theorem bind_alike {α α' β γ : Type} {first first' : Except AuditError α} {view : α → α'}
    (same : first.map view = first'.map view) {next next' : α → Except AuditError β} {show' : β → γ}
    (step : ∀ value value', view value = view value' →
      (next value).map show' = (next' value').map show') :
    (first >>= next).map show' = (first' >>= next').map show' := by
  cases first with
  | error fault =>
      cases first' with
      | error fault' =>
          cases same
          rfl
      | ok value' => cases same
  | ok value =>
      cases first' with
      | error fault' => cases same
      | ok value' => exact step value value' (Except.ok.inj same)

theorem bind_same {α β γ : Type} (first : Except AuditError α) {next next' : α → Except AuditError β}
    {show' : β → γ} (step : ∀ value, (next value).map show' = (next' value).map show') :
    (first >>= next).map show' = (first >>= next').map show' := by
  cases first with
  | error fault => rfl
  | ok value => exact step value

theorem checkArtifact_alike (alike : SameAnswer crypto python
      (resolvers.manifest env.capabilityManifestHash) (other.manifest env.capabilityManifestHash))
    (art : Bytes) :
    (checkArtifact crypto python resolvers env art).map (judged crypto python) =
      (checkArtifact crypto python other env art).map (judged crypto python) := by
  unfold checkArtifact
  apply bind_same
  intro fields
  apply bind_alike (checkEnforcement_alike alike _)
  rintro ⟨checks, claims⟩ ⟨checks', claims'⟩ same
  obtain ⟨rfl, verdicts⟩ := Prod.mk.inj same
  dsimp only
  rw [checkDecomposition_alike alike]
  apply bind_same
  intro checks
  exact congrArg (fun verdicts => Except.ok (checks, verdicts)) verdicts

theorem checkBinding_alike (alike : SameAnswer crypto python
      (resolvers.manifest env.capabilityManifestHash) (other.manifest env.capabilityManifestHash))
    (requireAllArtifacts : Bool) (art : Option Bytes) (bindingOk : Bool) :
    (checkBinding crypto python resolvers requireAllArtifacts env art bindingOk).map
        (judged crypto python) =
      (checkBinding crypto python other requireAllArtifacts env art bindingOk).map
        (judged crypto python) := by
  unfold checkBinding
  cases art with
  | none => rfl
  | some bytes =>
      dsimp only
      split_ifs
      · exact checkArtifact_alike alike bytes
      · rfl

theorem auditRow_alike (artifacts : resolvers.artifact env.outputHash = other.artifact env.outputHash)
    (alike : SameAnswer crypto python (resolvers.manifest env.capabilityManifestHash)
      (other.manifest env.capabilityManifestHash))
    (requireAllArtifacts : Bool) (actions : Dict HashKey RawEnvelope) :
    (auditRow crypto python resolvers requireAllArtifacts actions env).map (judged crypto python) =
      (auditRow crypto python other requireAllArtifacts actions env).map (judged crypto python) := by
  unfold auditRow
  rw [artifacts]
  apply bind_same
  intro hash
  apply bind_same
  intro art
  apply bind_same
  intro pubkey
  apply bind_alike (announced_alike alike actions art)
  intro claims claims' announced
  apply bind_alike (checkBinding_alike alike _ _ _)
  rintro ⟨checks, executed⟩ ⟨checks', executed'⟩ same
  obtain ⟨rfl, verdicts⟩ := Prod.mk.inj same
  refine congrArg (fun verdicts => Except.ok (_, verdicts)) ?_
  simp only [verifyAll, List.map_cons, List.map_append] at announced verdicts ⊢
  rw [announced, verdicts]

/-- The report is a function of the judged rows. -/
theorem auditProvenance_judged (resolvers : Resolvers) (requireClosed requireAllArtifacts : Bool)
    (envelopes : List RawEnvelope) :
    auditProvenance crypto python resolvers requireClosed requireAllArtifacts envelopes = (do
      let dag ← RawDag.verifyDag crypto python.toPython requireClosed envelopes
      let actions ← byAction envelopes
      let audited ← envelopes.mapM (fun env =>
        (auditRow crypto python resolvers requireAllArtifacts actions env).map (judged crypto python))
      let rows := audited.map Prod.fst
      let valid := dag.valid && rows.all (·.ok)
      pure {
        dag := dag
        actions := rows
        valid := valid
        summary := summaryOf envelopes.length dag (rows.filter (·.isExecution)).length valid
        governance := verifyAll crypto python.toPython [.envelopeDag requireClosed envelopes] ++
          audited.flatMap Prod.snd }) := by
  unfold auditProvenance
  cases RawDag.verifyDag crypto python.toPython requireClosed envelopes with
  | error fault => rfl
  | ok dag =>
      cases byAction envelopes with
      | error fault => rfl
      | ok actions =>
          dsimp only [bind, Except.bind]
          rw [Checks.mapM_map]
          cases envelopes.mapM (auditRow crypto python resolvers requireAllArtifacts actions) with
          | error fault => rfl
          | ok audited =>
              have rows : (audited.map (judged crypto python)).map Prod.fst = audited.map Prod.fst := by
                rw [List.map_map]
                rfl
              have verdicts : (audited.map (judged crypto python)).flatMap Prod.snd =
                  verifyAll crypto python.toPython (audited.flatMap Prod.snd) := by
                simp [verifyAll, judged, List.map_flatMap, List.flatMap_map]
              dsimp only [Except.map]
              rw [rows, verdicts, ← verifyAll_append]
              rfl

/-- Resolvers that answer alike for what the envelopes name give the same report. -/
theorem auditProvenance_alike {envelopes : List RawEnvelope}
    (artifacts : ∀ env ∈ envelopes,
      resolvers.artifact env.outputHash = other.artifact env.outputHash)
    (manifests : ∀ env ∈ envelopes, SameAnswer crypto python
      (resolvers.manifest env.capabilityManifestHash) (other.manifest env.capabilityManifestHash))
    (requireClosed requireAllArtifacts : Bool) :
    auditProvenance crypto python resolvers requireClosed requireAllArtifacts envelopes =
      auditProvenance crypto python other requireClosed requireAllArtifacts envelopes := by
  have rows : ∀ actions, envelopes.mapM (fun env =>
        (auditRow crypto python resolvers requireAllArtifacts actions env).map (judged crypto python)) =
      envelopes.mapM (fun env =>
        (auditRow crypto python other requireAllArtifacts actions env).map (judged crypto python)) := by
    intro actions
    apply Checks.mapM_congr
    intro env member
    exact auditRow_alike (artifacts env member) (manifests env member) requireAllArtifacts actions
  rw [auditProvenance_judged, auditProvenance_judged]
  simp only [rows]

end Alike

end RawAudit

end Gyza

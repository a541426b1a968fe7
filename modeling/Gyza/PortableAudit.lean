import Gyza.Closure
import Gyza.ManifestOrder
import Gyza.TypedAudit

/-! The portable audit: what a bundle's audit reports, on the far side of its bytes. -/

namespace Gyza

open CanonJson (Doc)
open Hex (Bytes utf8)
open PyValue (Fields Value dictGet)
open PyValue.Value (sortedDict isJson_dict_iff)
open Audit (AuditError)

/-! A dictionary as a list of fields. -/

theorem Dict.rows_lookup {α : Type} (dict : Dict String α) (key : String) :
    dict.rows.lookup key = dict.lookup key := by
  apply Option.ext
  intro value
  rw [Doc.mem_lookup dict.keys_nodup, Dict.lookup_eq_some]

namespace Evidence

theorem lookup_keepFirst {α : Type} (resolve : String → Option α) (held : Dict String α)
    (first address : String) :
    (keepFirst resolve held first).lookup address =
      (held.lookup address).or (if address = first then resolve address else none) := by
  unfold keepFirst
  split
  next found absent answer =>
    rw [Dict.lookup_set]
    by_cases same : address = first
    · subst same
      simp [absent, answer]
    · simp [same, Ne.symm same]
  next stays =>
    by_cases same : address = first
    · subst same
      cases kept : held.lookup address with
      | some found => simp
      | none =>
          cases answer : resolve address with
          | none => simp
          | some found => exact absurd answer (stays found kept)
    · simp [same]

theorem lookup_collect_from {α : Type} (resolve : String → Option α) (addresses : List String)
    (held : Dict String α) (address : String) :
    (addresses.foldl (keepFirst resolve) held).lookup address =
      (held.lookup address).or (if address ∈ addresses then resolve address else none) := by
  induction addresses generalizing held with
  | nil => simp
  | cons first rest ih =>
      rw [List.foldl_cons, ih, lookup_keepFirst]
      by_cases same : address = first
      · subst same
        cases held.lookup address with
        | some found => simp
        | none => cases resolve address <;> simp
      · simp [same]

/-- Every address asked for is answered as its resolver answers it. -/
theorem lookup_collect {α : Type} (resolve : String → Option α) {addresses : List String}
    {address : String} (asked : address ∈ addresses) :
    (collect resolve addresses).lookup address = resolve address := by
  rw [collect, lookup_collect_from, if_pos asked]
  rfl

theorem lookup_collect_some {α : Type} {resolve : String → Option α} {addresses : List String}
    {address : String} {found : α}
    (held : (collect resolve addresses).lookup address = some found) :
    resolve address = some found := by
  rw [collect, lookup_collect_from] at held
  split_ifs at held
  · exact held
  · cases held

/-! The shape of a bundle, before and after its bytes. -/

/-- What `load_bundle` asks of the object it parses. -/
structure Shaped (bundle : Fields) : Prop where
  json : (Value.dict bundle).isJson = true
  format : bundle.lookup "format" = some (.str bundleFormat)
  version : bundle.lookup "version" = some (.int bundleVersion)
  known : ∀ field ∈ bundle, field.1 ∈ bundleKeys ++ bundleOptionalKeys
  required : ∀ key ∈ bundleKeys, (bundle.lookup key).isSome = true
  envelopes : ∃ first rest, dictGet bundle "envelopes" .none = .collection .list (first :: rest)
  artifacts : ∃ fields, dictGet bundle "artifacts" .none = .dict fields
  manifests : ∃ fields, dictGet bundle "manifests" .none = .dict fields

theorem Shaped.distinct {bundle : Fields} (shaped : Shaped bundle) : (bundle.map Prod.fst).Nodup :=
  ((isJson_dict_iff bundle).mp shaped.json).1

theorem Shaped.sorted_get {bundle : Fields} (shaped : Shaped bundle) (key : String) :
    dictGet (sortedDict bundle) key .none = (dictGet bundle key .none).sorted :=
  Value.dictGet_sorted shaped.distinct key .none

/-- A well-shaped bundle is loaded back, its keys sorted. -/
theorem Shaped.loaded {bundle : Fields} (shaped : Shaped bundle) {python : Audit.Python}
    {data : Bytes} (parsed : python.loads data = .document (Value.dict bundle).sorted) :
    loadBundle python data = .ok (sortedDict bundle) := by
  have get := shaped.sorted_get
  have format : dictGet (sortedDict bundle) "format" .none = .str bundleFormat := by
    rw [get, dictGet, shaped.format]
    rfl
  have version : dictGet (sortedDict bundle) "version" .none = .int bundleVersion := by
    rw [get, dictGet, shaped.version]
    rfl
  have known : (sortedDict bundle).all (fun field => field.1 ∈ bundleKeys ++ bundleOptionalKeys) =
      true := by
    rw [List.all_eq_true]
    intro field member
    obtain ⟨held, present, rfl⟩ :=
      List.mem_map.mp ((Value.sortedDict_perm shaped.distinct).mem_iff.mp member)
    exact decide_eq_true (shaped.known held present)
  have required : bundleKeys.all (fun key => ((sortedDict bundle).lookup key).isSome) = true := by
    rw [List.all_eq_true]
    intro key member
    rw [Value.lookup_sorted shaped.distinct, Option.isSome_map]
    exact shaped.required key member
  obtain ⟨first, rest, envelopes⟩ := shaped.envelopes
  obtain ⟨artifacts, artifacts_held⟩ := shaped.artifacts
  obtain ⟨manifests, manifests_held⟩ := shaped.manifests
  rw [loadBundle, parsed, Value.sorted_dict]
  dsimp only
  rw [format, version, known, required, get, get, get, envelopes, artifacts_held, manifests_held]
  rfl

theorem dict_rows_nodup {α β : Type} (dict : Dict String α) (change : α → β) :
    ((dict.rows.map (fun row => (row.1, change row.2))).map Prod.fst).Nodup := by
  rw [List.map_map]
  exact dict.distinct

theorem isJson_asdict (env : ICPEnvelope) :
    (Value.dict (RawEnvelope.ofEnvelope env).asdict).isJson = true := by
  rw [isJson_dict_iff]
  have inputs : Value.itemsJson (env.inputHashes.map .str) = true := by
    rw [Value.itemsJson_iff]
    intro item member
    obtain ⟨_, _, rfl⟩ := List.mem_map.mp member
    rfl
  have parent : (env.parentEnvelopeHash.elim Value.none .str).isJson = true := by
    cases env.parentEnvelopeHash <;> rfl
  constructor
  · simp [RawEnvelope.asdict, RawEnvelope.payloadFields]
  · simp [RawEnvelope.asdict, RawEnvelope.payloadFields, RawEnvelope.ofEnvelope, inputs, parent,
      Value.isJson]

section Export

variable (resolvers : Resolvers) (runner : Fields) (intentId : String) (envelopes : List ICPEnvelope)

def artifactsHeld : Dict String Bytes := collect resolvers.artifact (envelopes.map (·.outputHash))

def manifestsHeld : Dict String Fields :=
  collect resolvers.manifest (envelopes.map (·.capabilityManifestHash))

variable {resolvers runner envelopes}

theorem createBundle_shaped (nonempty : envelopes ≠ [])
    (runner_json : (Value.dict runner).isJson = true)
    (manifests_json : ∀ hash manifest, resolvers.manifest hash = some manifest →
      (Value.dict manifest).isJson = true) :
    Shaped (createBundle resolvers runner intentId envelopes) := by
  have artifacts : (Value.dict ((artifactsHeld resolvers envelopes).rows.map
      (fun row => (row.1, .str (Base64.encode row.2))))).isJson = true := by
    rw [isJson_dict_iff]
    refine ⟨dict_rows_nodup _ (fun bytes => Value.str (Base64.encode bytes)), ?_⟩
    intro field member
    obtain ⟨_, _, rfl⟩ := List.mem_map.mp member
    rfl
  have manifests : (Value.dict ((manifestsHeld resolvers envelopes).rows.map
      (fun row => (row.1, .dict row.2)))).isJson = true := by
    rw [isJson_dict_iff]
    refine ⟨dict_rows_nodup _ Value.dict, ?_⟩
    intro field member
    obtain ⟨row, present, rfl⟩ := List.mem_map.mp member
    exact manifests_json row.1 row.2
      (lookup_collect_some ((Dict.lookup_eq_some _ _ _).mpr present))
  have items : (Value.collection .list (envelopes.map
      (fun env => .dict (RawEnvelope.ofEnvelope env).asdict))).isJson = true := by
    rw [Value.isJson, Value.itemsJson_iff]
    intro item member
    obtain ⟨env, _, rfl⟩ := List.mem_map.mp member
    exact isJson_asdict env
  refine ⟨?_, rfl, rfl, ?_, ?_, ?_, ⟨_, rfl⟩, ⟨_, rfl⟩⟩
  · rw [isJson_dict_iff]
    constructor
    · simp [createBundle]
    · intro field member
      simp only [createBundle, List.mem_cons, List.not_mem_nil, or_false] at member
      obtain rfl | rfl | rfl | rfl | rfl | rfl | rfl := member
      · rfl
      · rfl
      · rfl
      · exact runner_json
      · exact items
      · exact artifacts
      · exact manifests
  · simp [createBundle, bundleKeys]
  · simp [createBundle, bundleKeys, List.lookup]
  · obtain ⟨first, rest, rfl⟩ := List.exists_cons_of_ne_nil nonempty
    exact ⟨_, _, rfl⟩

end Export

theorem setField_absent {fields : Fields} {key : String} (absent : key ∉ fields.map Prod.fst)
    (value : Value) : setField fields key value = fields ++ [(key, value)] := by
  rw [setField, if_neg]
  intro held
  obtain ⟨field, member, same⟩ := List.any_eq_true.mp held
  exact absent (List.mem_map.mpr ⟨field, member, of_decide_eq_true same⟩)

theorem Shaped.setField {bundle : Fields} (shaped : Shaped bundle) {value : Value}
    (open_ : "closure" ∉ bundle.map Prod.fst) (json : value.isJson = true) :
    Shaped (setField bundle "closure" value) := by
  have get : ∀ key, key ≠ "closure" →
      (Evidence.setField bundle "closure" value).lookup key = bundle.lookup key := by
    intro key other
    rw [lookup_setField, if_neg other]
  have got : ∀ key default, key ≠ "closure" →
      dictGet (Evidence.setField bundle "closure" value) key default = dictGet bundle key default := by
    intro key default other
    rw [dictGet, get key other, dictGet]
  constructor
  · rw [setField_absent open_, isJson_dict_iff]
    have parts := (isJson_dict_iff bundle).mp shaped.json
    constructor
    · rw [List.map_append, List.nodup_append]
      refine ⟨parts.1, by simp, ?_⟩
      intro key member other last same
      rw [List.map_singleton, List.mem_singleton] at last
      rw [same, last] at member
      exact open_ member
    · intro field member
      obtain present | rfl := (List.mem_append.mp member).imp_right List.mem_singleton.mp
      · exact parts.2 field present
      · exact json
  · rw [get _ (by decide)]
    exact shaped.format
  · rw [get _ (by decide)]
    exact shaped.version
  · rw [setField_absent open_]
    intro field member
    obtain present | rfl := (List.mem_append.mp member).imp_right List.mem_singleton.mp
    · exact shaped.known field present
    · simp [bundleOptionalKeys]
  · intro key member
    rw [get key]
    · exact shaped.required key member
    · rintro rfl
      simp [bundleKeys] at member
  · rw [got _ _ (by decide)]
    exact shaped.envelopes
  · rw [got _ _ (by decide)]
    exact shaped.artifacts
  · rw [got _ _ (by decide)]
    exact shaped.manifests

/-! What the audit finds in a loaded bundle. -/

theorem ofFields_sorted (env : ICPEnvelope) :
    RawEnvelope.ofFields (sortedDict (RawEnvelope.ofEnvelope env).asdict) =
      some (RawEnvelope.ofEnvelope env) := by
  have distinct := ((isJson_dict_iff _).mp (isJson_asdict env)).1
  have known : (sortedDict (RawEnvelope.ofEnvelope env).asdict).all
      (fun field => field.1 ∈ RawEnvelope.fieldNames) = true := by
    rw [List.all_eq_true]
    intro field member
    obtain ⟨held, present, rfl⟩ :=
      List.mem_map.mp ((Value.sortedDict_perm distinct).mem_iff.mp member)
    have all : (RawEnvelope.ofEnvelope env).asdict.all
        (fun field => field.1 ∈ RawEnvelope.fieldNames) = true := by
      simp [RawEnvelope.asdict, RawEnvelope.payloadFields, RawEnvelope.fieldNames]
    exact List.all_eq_true.mp all held present
  have inputs : Value.sortedItems (env.inputHashes.map .str) = env.inputHashes.map .str := by
    rw [Value.sortedItems_eq_map, List.map_map]
    rfl
  have parent : (env.parentEnvelopeHash.elim Value.none .str).sorted =
      env.parentEnvelopeHash.elim .none .str := by
    cases env.parentEnvelopeHash <;> rfl
  rw [RawEnvelope.ofFields, if_pos known]
  simp only [Value.lookup_sorted distinct, dictGet]
  simp [RawEnvelope.asdict, RawEnvelope.payloadFields, RawEnvelope.ofEnvelope, List.lookup,
    Value.sorted, inputs, parent]

theorem envelopesFrom_sorted (envelopes : List ICPEnvelope) (i : Nat) :
    envelopesFrom i (envelopes.map
        (fun env => .dict (sortedDict (RawEnvelope.ofEnvelope env).asdict))) =
      .ok (envelopes.map RawEnvelope.ofEnvelope) := by
  induction envelopes generalizing i with
  | nil => rfl
  | cons env rest ih =>
      rw [List.map_cons, envelopesFrom, ofFields_sorted, ih]
      rfl

theorem decodeArtifacts_encoded (rows : List (String × Bytes)) :
    decodeArtifacts (rows.map (fun row => (row.1, .str (Base64.encode row.2)))) = .ok rows := by
  induction rows with
  | nil => rfl
  | cons row rest ih =>
      rw [List.map_cons, decodeArtifacts, Base64.decode_encode, ih]
      rfl

/-- The same evidence, with the keys of every manifest sorted. -/
def sortedResolvers (resolvers : Resolvers) : Resolvers where
  artifact := resolvers.artifact
  manifest address := (resolvers.manifest address).map sortedDict

/-- A loaded bundle that carries the envelopes with all of their evidence. -/
structure Carries (resolvers : Resolvers) (envelopes : List ICPEnvelope) (loaded : Fields) : Prop where
  items : dictGet loaded "envelopes" Value.emptyList = .collection .list
    (envelopes.map (fun env => .dict (sortedDict (RawEnvelope.ofEnvelope env).asdict)))
  encoded : dictGet loaded "artifacts" .none = .dict
    ((Doc.sortFields (artifactsHeld resolvers envelopes).rows).map
      (fun row => (row.1, .str (Base64.encode row.2))))
  objects : dictGet loaded "manifests" .none = .dict
    ((Doc.sortFields (manifestsHeld resolvers envelopes).rows).map
      (fun row => (row.1, .dict (sortedDict row.2))))

theorem sortedDict_map {α : Type} (change : α → Value) (rows : List (String × α)) :
    sortedDict (rows.map (fun row => (row.1, change row.2))) =
      (Doc.sortFields rows).map (fun row => (row.1, (change row.2).sorted)) := by
  rw [sortedDict, Value.sortedFields_eq_map, List.map_map]
  exact Doc.sortFields_map (fun row => (change row).sorted) rows

theorem carries_sorted {resolvers : Resolvers} {envelopes : List ICPEnvelope} {bundle : Fields}
    (distinct : (bundle.map Prod.fst).Nodup)
    (items : dictGet bundle "envelopes" Value.emptyList = .collection .list
      (envelopes.map (fun env => .dict (RawEnvelope.ofEnvelope env).asdict)))
    (artifacts : dictGet bundle "artifacts" .none = .dict
      ((artifactsHeld resolvers envelopes).rows.map
        (fun row => (row.1, .str (Base64.encode row.2)))))
    (manifests : dictGet bundle "manifests" .none = .dict
      ((manifestsHeld resolvers envelopes).rows.map (fun row => (row.1, .dict row.2)))) :
    Carries resolvers envelopes (sortedDict bundle) := by
  constructor
  · have found := Value.dictGet_sorted distinct "envelopes" Value.emptyList
    rw [items, Value.sorted, Value.sortedItems_eq_map, List.map_map] at found
    exact found
  · have found := Value.dictGet_sorted distinct "artifacts" .none
    rw [artifacts, Value.sorted_dict, sortedDict_map (fun bytes => .str (Base64.encode bytes))] at found
    exact found
  · have found := Value.dictGet_sorted distinct "manifests" .none
    rw [manifests, Value.sorted_dict, sortedDict_map Value.dict] at found
    exact found

variable {resolvers : Resolvers} {envelopes : List ICPEnvelope} {loaded : Fields}

theorem artifact_carried {env : ICPEnvelope} (member : env ∈ envelopes) :
    heldBy (Doc.sortFields (artifactsHeld resolvers envelopes).rows) (.str env.outputHash) =
      .ok (resolvers.artifact env.outputHash) := by
  have lookup : (Doc.sortFields (artifactsHeld resolvers envelopes).rows).lookup env.outputHash =
      resolvers.artifact env.outputHash := by
    rw [Doc.lookup_sortFields (artifactsHeld resolvers envelopes).keys_nodup, Dict.rows_lookup]
    exact lookup_collect _ (List.mem_map.mpr ⟨env, member, rfl⟩)
  exact congrArg Except.ok lookup

theorem manifest_carried {env : ICPEnvelope} (member : env ∈ envelopes) :
    heldBy ((Doc.sortFields (manifestsHeld resolvers envelopes).rows).map
        (fun row => (row.1, Value.dict (sortedDict row.2)))) (.str env.capabilityManifestHash) =
      .ok ((resolvers.manifest env.capabilityManifestHash).map (fun held => .dict (sortedDict held))) := by
  have lookup : ((Doc.sortFields (manifestsHeld resolvers envelopes).rows).map
      (fun row => (row.1, Value.dict (sortedDict row.2)))).lookup env.capabilityManifestHash =
        (resolvers.manifest env.capabilityManifestHash).map (fun held => .dict (sortedDict held)) := by
    rw [Value.lookup_map (fun held => Value.dict (sortedDict held)),
      Doc.lookup_sortFields (manifestsHeld resolvers envelopes).keys_nodup, Dict.rows_lookup,
      manifestsHeld, lookup_collect _ (List.mem_map.mpr ⟨env, member, rfl⟩)]
  exact congrArg Except.ok lookup

theorem bundleResolvers_manifest (artifacts : List (String × Bytes)) {manifests : Fields}
    {address : Value} {answer : Option Value} (held : heldBy manifests address = .ok answer) :
    (bundleResolvers artifacts manifests).manifest address =
      .ok (answer.bind (fun manifest =>
        match manifest with
        | .dict fields => some fields
        | _ => none)) := by
  have unfolded : (bundleResolvers artifacts manifests).manifest address =
      (heldBy manifests address).map (fun held => held.bind (fun manifest =>
        match manifest with
        | .dict fields => some fields
        | _ => none)) := rfl
  rw [unfolded, held]
  rfl

/-- The audit of a loaded bundle is the local audit over sorted manifests. -/
theorem Carries.verifyBundle {crypto : Crypto} {python : RawAudit.Python}
    (carries : Carries resolvers envelopes loaded) {status : ClosureStatus}
    (closure : verifyClosure crypto python.toPython loaded = .ok status) :
    verifyBundle crypto python loaded =
      if status.asserted = true ∧ status.valid = false then
        .error (.bundleError (.closure status.reason))
      else Checks.wrap .escaped
        (RawAudit.auditProvenance crypto python (localResolvers (sortedResolvers resolvers)) true true
          (envelopes.map RawEnvelope.ofEnvelope)) := by
  have items : envelopesOf loaded = .ok (envelopes.map RawEnvelope.ofEnvelope) := by
    rw [envelopesOf, envelopeItems, carries.items]
    exact congrArg (Checks.wrap Failure.bundleError) (envelopesFrom_sorted envelopes 0)
  have artifacts : decodeArtifacts (dictGet loaded "artifacts" .none).fields =
      .ok (Doc.sortFields (artifactsHeld resolvers envelopes).rows) := by
    rw [carries.encoded]
    exact decodeArtifacts_encoded _
  rw [Evidence.verifyBundle, items, artifacts, closure]
  dsimp only [Checks.wrap, bind, Except.bind]
  rw [carries.objects]
  refine if_congr Iff.rfl rfl
    (congrArg (Checks.wrap Failure.escaped) (RawAudit.auditProvenance_alike ?_ ?_ true true))
  · rw [List.forall_mem_map]
    intro env member
    exact artifact_carried member
  · rw [List.forall_mem_map]
    intro env member
    have held := bundleResolvers_manifest
      (Doc.sortFields (artifactsHeld resolvers envelopes).rows)
      (@manifest_carried resolvers envelopes env member)
    have same : (localResolvers (sortedResolvers resolvers)).manifest
        (.str env.capabilityManifestHash) =
          .ok ((resolvers.manifest env.capabilityManifestHash).map sortedDict) := rfl
    have both : (bundleResolvers (Doc.sortFields (artifactsHeld resolvers envelopes).rows)
        ((Doc.sortFields (manifestsHeld resolvers envelopes).rows).map
          (fun row => (row.1, Value.dict (sortedDict row.2))))).manifest
            (.str env.capabilityManifestHash) =
        (localResolvers (sortedResolvers resolvers)).manifest (.str env.capabilityManifestHash) := by
      rw [held, same]
      cases resolvers.manifest env.capabilityManifestHash <;> rfl
    have named : (RawEnvelope.ofEnvelope env).capabilityManifestHash =
        .str env.capabilityManifestHash := rfl
    rw [Value.fields, named, both]
    exact RawAudit.SameAnswer.refl _

theorem Carries.hashesOf {crypto : Crypto} {python : Audit.Python}
    (carries : Carries resolvers envelopes loaded) :
    hashesOf crypto python loaded = .ok (envelopes.map (computeEnvelopeHash crypto)) := by
  have items : envelopeItems loaded = .ok (envelopes.map
      (fun env => .dict (sortedDict (RawEnvelope.ofEnvelope env).asdict))) := by
    rw [envelopeItems, carries.items]
    rfl
  rw [Evidence.hashesOf, items, Checks.bind_ok_iff]
  refine ⟨_, rfl, (Checks.mapM_ok_iff _ _ _).mpr ?_⟩
  rw [List.forall₂_map_left_iff, List.forall₂_map_right_iff, List.forall₂_same]
  intro env _
  rw [hashOf, ofFields_sorted]
  exact computeEnvelopeHash_ofEnvelope crypto python env

theorem isJson_closureRecord (crypto : Crypto) (intentId : String) (hashes : List String)
    (signer signature : String) :
    (Value.dict (closureRecord crypto (.str intentId) hashes signer signature)).isJson = true := by
  rw [isJson_dict_iff]
  constructor
  · simp [closureRecord, closurePayload]
  · simp [closureRecord, closurePayload, Value.isJson]

theorem records_sorted (crypto : Crypto) (intentId : String) (hashes : List String)
    (signer signature : String) :
    Records crypto (sortedDict (closureRecord crypto (.str intentId) hashes signer signature))
      (.str intentId) hashes signer signature := by
  have distinct :=
    ((isJson_dict_iff _).mp (isJson_closureRecord crypto intentId hashes signer signature)).1
  intro key member
  rw [Value.lookup_sorted distinct]
  simp only [List.mem_cons, List.not_mem_nil, or_false] at member
  obtain rfl | rfl | rfl | rfl | rfl := member <;> rfl

/-! Both audits. -/

section Audits

variable (crypto : Crypto) (python : RawAudit.Python)

/-- `json.loads` reads back what `json.dumps` wrote, the keys in the order of the text. -/
def ReadsBack (bundle : Fields) : Prop :=
  ∀ data, bundleToBytes python.toPython bundle = some data →
    python.loads data = .document (Value.dict bundle).sorted

/-- `verify_bundle(load_bundle(bundle_to_bytes(bundle)))`. -/
def portableAudit (bundle : Fields) : Except Failure RawAudit.AuditReport :=
  match bundleToBytes python.toPython bundle with
  | none => .error (.escaped .valueError)
  | some data => do verifyBundle crypto python (← loadBundle python.toPython data)

variable {crypto python}

theorem Shaped.portableAudit {bundle : Fields} (shaped : Shaped bundle)
    (reads : ReadsBack python bundle) :
    portableAudit crypto python bundle = verifyBundle crypto python (sortedDict bundle) := by
  obtain ⟨document, converts, -⟩ := RawAudit.toDoc_sorted _ shaped.json
  have bytes : bundleToBytes python.toPython bundle =
      some (utf8 (Doc.dumps python.floatRepr document.normal)) := by
    rw [bundleToBytes, canonicalBytes, converts]
    rfl
  rw [Evidence.portableAudit, bytes]
  dsimp only
  rw [shaped.loaded (reads _ bytes)]
  rfl

variable {runner : Fields} {intentId : String}

/-- The portable audit is the local audit over sorted manifests. -/
theorem portableAudit_sorted (nonempty : envelopes ≠ [])
    (runner_json : (Value.dict runner).isJson = true)
    (manifests_json : ∀ hash manifest, resolvers.manifest hash = some manifest →
      (Value.dict manifest).isJson = true)
    (reads : ReadsBack python (createBundle resolvers runner intentId envelopes)) :
    portableAudit crypto python (createBundle resolvers runner intentId envelopes) =
      Checks.wrap .escaped (localAudit crypto python (sortedResolvers resolvers) envelopes) := by
  have shaped := createBundle_shaped intentId nonempty runner_json manifests_json
  have open_ : verifyClosure crypto python.toPython
      (sortedDict (createBundle resolvers runner intentId envelopes)) =
        .ok ⟨false, false, some .noRecord, 0⟩ := by
    rw [verifyClosure, shaped.sorted_get]
    rfl
  rw [shaped.portableAudit reads]
  exact (carries_sorted shaped.distinct rfl rfl rfl).verifyBundle open_

/-- A closed bundle is judged as the open one, when its signature is the named key's. -/
theorem portableAudit_closed (nonempty : envelopes ≠ [])
    (runner_json : (Value.dict runner).isJson = true)
    (manifests_json : ∀ hash manifest, resolvers.manifest hash = some manifest →
      (Value.dict manifest).isJson = true)
    {signer : String} {sign : Bytes → String} {pubkey : Bytes}
    (key : Hex.fromhex signer = some pubkey) (length : pubkey.length = 32)
    (hex : ∀ message, ∃ sig, Hex.fromhex (sign message) = some sig) :
    ∃ closed bytes sig, attachClosure crypto python.toPython
        (createBundle resolvers runner intentId envelopes) signer sign = .ok closed ∧
      Shaped closed ∧ Hex.fromhex (sign bytes) = some sig ∧
      (ReadsBack python closed → portableAudit crypto python closed =
        if crypto.ed25519Verify pubkey bytes sig then
          Checks.wrap .escaped (localAudit crypto python (sortedResolvers resolvers) envelopes)
        else .error (.bundleError (.closure (some .doesNotVerify)))) := by
  have shaped := createBundle_shaped intentId nonempty runner_json manifests_json
  have hashed := @hashesOf_createBundle crypto python.toPython resolvers runner intentId envelopes
  obtain ⟨bytes, payload⟩ : ∃ bytes, canonicalBytes python.toPython (closurePayload crypto
      (.str intentId) (envelopes.map (computeEnvelopeHash crypto))) = some bytes :=
    ⟨_, (closurePayload_doc _ _ _).mpr ⟨.str intentId, rfl, rfl⟩⟩
  have attached := (attachClosure_iff (createBundle resolvers runner intentId envelopes) signer sign
    _).mpr ⟨_, _, hashed, payload, rfl⟩
  obtain ⟨sig, signature⟩ := hex bytes
  have closed := shaped.setField (by simp [createBundle]) (isJson_closureRecord crypto intentId
    (envelopes.map (computeEnvelopeHash crypto)) signer (sign bytes))
  refine ⟨_, bytes, sig, attached, closed, signature, ?_⟩
  intro reads
  have carries := @carries_sorted resolvers envelopes _ closed.distinct
    (by rw [dictGet_setField, if_neg (by decide)]; rfl)
    (by rw [dictGet_setField, if_neg (by decide)]; rfl)
    (by rw [dictGet_setField, if_neg (by decide)]; rfl)
  have recorded := closed.sorted_get "closure"
  rw [dictGet_setField, if_pos rfl, Value.sorted_dict] at recorded
  have records := records_sorted crypto intentId (envelopes.map (computeEnvelopeHash crypto)) signer
    (sign bytes)
  have verdict := verifyClosure_record recorded
    (carries.hashesOf : hashesOf crypto python.toPython _ = _) records
  rw [checkSignature_record records payload key length signature] at verdict
  have audited := (closed.portableAudit reads).trans (carries.verifyBundle verdict)
  by_cases verifies : crypto.ed25519Verify pubkey bytes sig = true
  · rw [if_pos verifies] at audited ⊢
    exact audited
  · rw [if_neg verifies] at audited ⊢
    exact audited

/-- Sorting the manifests' keys shows in the report only through the texts of path entries. -/
theorem localAudit_sorted
    (manifests_json : ∀ hash manifest, resolvers.manifest hash = some manifest →
      (Value.dict manifest).isJson = true)
    (keep : ∀ hash manifest, resolvers.manifest hash = some manifest →
      RawAudit.PathsKeepText python.str manifest) :
    localAudit crypto python (sortedResolvers resolvers) envelopes =
      localAudit crypto python resolvers envelopes := by
  apply RawAudit.auditProvenance_alike
  · rw [List.forall_mem_map]
    intro env _
    rfl
  · rw [List.forall_mem_map]
    intro env _
    have sorted : (localResolvers (sortedResolvers resolvers)).manifest
        (.str env.capabilityManifestHash) =
          .ok ((resolvers.manifest env.capabilityManifestHash).map sortedDict) := rfl
    have plain : (localResolvers resolvers).manifest (.str env.capabilityManifestHash) =
        .ok (resolvers.manifest env.capabilityManifestHash) := rfl
    have named : (RawEnvelope.ofEnvelope env).capabilityManifestHash =
        .str env.capabilityManifestHash := rfl
    rw [named, sorted, plain]
    cases found : resolvers.manifest env.capabilityManifestHash with
    | none => exact .absent
    | some manifest =>
        exact .held _ _ (.sorted (manifests_json _ _ found) (keep _ _ found))

end Audits

/-! Values read back from their documents. -/

mutual
def ofDoc : Doc Float → Value
  | .null => .none
  | .bool value => .bool value
  | .int value => .int value
  | .float value => .float value
  | .str text => .str text
  | .arr items => .collection .list (ofItems items)
  | .obj fields => .dict (ofDocFields fields)
def ofItems : List (Doc Float) → List Value
  | [] => []
  | item :: rest => ofDoc item :: ofItems rest
def ofDocFields : List (String × Doc Float) → Fields
  | [] => []
  | (name, value) :: rest => (name, ofDoc value) :: ofDocFields rest
end

mutual
theorem ofDoc_toDoc (value : Value) (json : value.isJson = true) {document : Doc Float}
    (converted : Audit.toDoc value = some document) : ofDoc document = value := by
  match value with
  | .none | .bool _ | .int _ | .str _ =>
      cases converted
      rfl
  | .float value =>
      have finite : value.isFinite = true := json
      rw [Audit.toDoc, if_pos finite] at converted
      cases converted
      rfl
  | .collection .list items =>
      rw [Value.isJson] at json
      obtain ⟨documents, converts, rfl⟩ := Option.map_eq_some_iff.mp converted
      rw [ofDoc, ofItems_itemsToDoc items json converts]
  | .dict fields =>
      rw [Value.isJson, Bool.and_eq_true] at json
      obtain ⟨documents, converts, rfl⟩ := Option.map_eq_some_iff.mp converted
      rw [ofDoc, ofDocFields_fieldsToDoc fields json.2 converts]
theorem ofItems_itemsToDoc (items : List Value) (json : Value.itemsJson items = true)
    {documents : List (Doc Float)} (converted : Audit.itemsToDoc items = some documents) :
    ofItems documents = items := by
  match items with
  | [] =>
      cases converted
      rfl
  | item :: rest =>
      rw [Value.itemsJson, Bool.and_eq_true] at json
      simp only [Audit.itemsToDoc, Option.bind_eq_bind, Option.bind_eq_some_iff, Option.pure_def,
        Option.some.injEq] at converted
      obtain ⟨first, converts, others, later, rfl⟩ := converted
      rw [ofItems, ofDoc_toDoc item json.1 converts, ofItems_itemsToDoc rest json.2 later]
theorem ofDocFields_fieldsToDoc (fields : Fields) (json : Value.fieldsJson fields = true)
    {documents : List (String × Doc Float)}
    (converted : Audit.fieldsToDoc fields = some documents) : ofDocFields documents = fields := by
  match fields with
  | [] =>
      cases converted
      rfl
  | (name, value) :: rest =>
      rw [Value.fieldsJson, Bool.and_eq_true] at json
      simp only [Audit.fieldsToDoc, Option.bind_eq_bind, Option.bind_eq_some_iff, Option.pure_def,
        Option.some.injEq] at converted
      obtain ⟨first, converts, others, later, rfl⟩ := converted
      rw [ofDocFields, ofDoc_toDoc value json.1 converts, ofDocFields_fieldsToDoc rest json.2 later]
end

/-- A reader that knows every canonical document reads every bundle back. -/
theorem readsBack_of_dumps {python : RawAudit.Python} (reads : ∀ document : Doc Float,
      python.loads (utf8 (Doc.dumps python.floatRepr document)) = .document (ofDoc document))
    {bundle : Fields} (json : (Value.dict bundle).isJson = true) : ReadsBack python bundle := by
  obtain ⟨document, converts, sorted⟩ := RawAudit.toDoc_sorted _ json
  intro data written
  rw [bundleToBytes, canonicalBytes, converts] at written
  cases written
  rw [reads, ofDoc_toDoc _ (Value.isJson_sorted _ json) sorted]

end Evidence

/-! A manifest whose path entry is an object with unsorted keys. -/

namespace Sample

/-- `str` of a text, an integer, and an object of such. -/
def reprText : Value → String
  | .str text => text
  | .int value => toString value
  | .dict fields => "\x7b" ++ ", ".intercalate (fields.map (fun field =>
      match field.2 with
      | .int value => "'" ++ field.1 ++ "': " ++ toString value
      | _ => "'" ++ field.1 ++ "'")) ++ "\x7d"
  | _ => ""

open Classical in
/-- The inverse of `json.dumps` on every document. -/
noncomputable def jsonLoads (data : Bytes) : Audit.Parsed :=
  if written : ∃ document : Doc Float, utf8 (Doc.dumps bitFloats.repr document) = data then
    .document (Evidence.ofDoc written.choose)
  else .malformed

theorem jsonLoads_dumps (document : Doc Float) :
    jsonLoads (utf8 (Doc.dumps bitFloats.repr document)) = .document (Evidence.ofDoc document) := by
  have written : ∃ other : Doc Float, utf8 (Doc.dumps bitFloats.repr other) =
      utf8 (Doc.dumps bitFloats.repr document) := ⟨document, rfl⟩
  rw [jsonLoads, dif_pos written,
    Doc.dumps_injective bitFloats (Hex.utf8_injective written.choose_spec)]

noncomputable def readingPython : RawAudit.Python where
  loads := jsonLoads
  str := reprText
  floatRepr := bitFloats.repr
  truncate _ := 0
  intOfText _ := none
  loadsBytes := jsonLoads

theorem readingPython_reads (bundle : Fields) (json : (Value.dict bundle).isJson = true) :
    Evidence.ReadsBack readingPython bundle :=
  Evidence.readsBack_of_dumps jsonLoads_dumps json

/-- `str` shows the keys of this path in the order they are in. -/
def unsortedPath : Value := .dict [("b", .int 1), ("a", .int 2)]

def pathManifest : Fields :=
  [("capabilities", .dict [("filesystem", .dict [("read", .collection .list [unsortedPath])])])]

/-- A record that was granted the one path. -/
def executedDoc : Doc Float :=
  .obj [("__enforcement__", .obj [("backend", .str "bubblewrap"),
    ("ro_paths", .arr [.str "\x7b'b': 1, 'a': 2\x7d"]), ("rw_paths", .arr []),
    ("requires_network", .bool false)])]

def executedBytes : Bytes := utf8 (Doc.dumps bitFloats.repr executedDoc)

def executed : ICPEnvelope :=
  signEnvelope (compositor 1) {
    intentId := "intent-1"
    actionId := "action-1"
    agentPubkey := (compositor 1).pubkeyHex
    capabilityManifestHash := (Audit.manifestHashHex crypto jsonPython pathManifest).getD ""
    inputHashes := ["input"]
    outputHash := crypto.hexdigest executedBytes
    parentEnvelopeHash := none
    timestampNs := 1000
    inferenceBackend := "mock"
    modelIdentifier := "mock"
    durationMs := 5
    tokensIn := 3
    tokensOut := 4 }

def pathResolvers : Evidence.Resolvers where
  artifact _ := some executedBytes
  manifest _ := some pathManifest

theorem executed_quiet : ∀ env ∈ [executed], ∀ bytes,
    pathResolvers.artifact env.outputHash = some bytes → readingPython.loadsBytes bytes ≠ .raises := by
  intro env _ bytes held
  cases held
  have parsed : readingPython.loadsBytes executedBytes = _ := jsonLoads_dumps executedDoc
  rw [parsed]
  exact Audit.Parsed.noConfusion

theorem pathManifest_json : (Value.dict pathManifest).isJson = true := by decide

theorem pathManifest_hash : Audit.manifestHashHex crypto readingPython.toPython pathManifest =
    some executed.capabilityManifestHash := rfl

theorem executed_read : Audit.artifactFields readingPython.toPython executedBytes =
    .ok (Evidence.ofDoc executedDoc).fields := by
  have parsed : readingPython.loads executedBytes = .document (Evidence.ofDoc executedDoc) :=
    jsonLoads_dumps executedDoc
  rw [Audit.artifactFields, parsed]

/-- What the gate says of the record, by the manifest as it was written and by the sorted one. -/
theorem executed_gate :
    enforcementSatisfiesManifest reprText
        (Audit.enforcementOf (Evidence.ofDoc executedDoc).fields) (.dict pathManifest) =
          .ok (.ok ()) ∧
      enforcementSatisfiesManifest reprText
        (Audit.enforcementOf (Evidence.ofDoc executedDoc).fields) (.dict (sortedDict pathManifest)) ≠
          .ok (.ok ()) := by
  constructor
  · rfl
  · intro accepted
    have granted := (enforcementSatisfiesManifest_ok accepted).reads
    revert granted
    decide

theorem executed_holds : Audit.RowHolds crypto readingPython.toPython
    (Evidence.steadyResolvers pathResolvers) true 0 executed := by
  refine ⟨rfl, _, executed_read, ?_, ?_⟩
  · intro _
    exact ⟨pathManifest, rfl, pathManifest_hash, executed_gate.1⟩
  · intro decomposed
    cases decomposed

theorem executed_intact : (verifyDag crypto true [executed]).valid = true :=
  Audit.verifyDag_root blake3_injective true
    (signEnvelope_verifies (compositor 1) _ rfl : selfVerifies crypto executed = true) rfl
    (by simp [executed, signEnvelope])

/-- The sorted manifest has the named hash, so the row is measured and refused. -/
theorem executed_sorted : ∃ report, Audit.auditProvenance crypto readingPython.toPython
    (Evidence.steadyResolvers (Evidence.sortedResolvers pathResolvers)) true true [executed] =
      .ok report ∧ report.valid = false := by
  have answered := (@Audit.auditProvenance_answers_iff crypto readingPython.toPython
    (Evidence.steadyResolvers (Evidence.sortedResolvers pathResolvers)) true true [executed]).mpr (by
    intro k env found art resolved _
    have bytes : executedBytes = art := Option.some.inj resolved
    subst bytes
    cases k with
    | succ k => cases found
    | zero =>
        cases found
        refine ⟨_, executed_read, ?_, ?_⟩
        · intro _ manifest held
          cases held
          exact ⟨_, (RawAudit.manifestHashHex_sorted pathManifest_json).trans pathManifest_hash,
            fun _ _ => ⟨rfl, rfl⟩⟩
        · intro decomposed
          cases decomposed)
  obtain ⟨report, audited⟩ := answered
  refine ⟨report, audited, ?_⟩
  by_contra accepted
  rw [Bool.not_eq_false] at accepted
  have holds := ((Audit.auditProvenance_valid audited).mp accepted).2 0 executed rfl
  obtain ⟨_, fields, read, enforced, -⟩ := holds
  cases executed_read.symm.trans read
  obtain ⟨manifest, held, -, within⟩ := enforced rfl
  cases held
  exact executed_gate.2 within

end Sample

namespace Sample

def textManifest : Fields :=
  [("capabilities", .dict [("filesystem", .dict [("read", .collection .list [.str "/a"])])])]

def textResolvers : Evidence.Resolvers where
  artifact _ := some executedBytes
  manifest _ := some textManifest

theorem textManifest_keeps : RawAudit.PathsKeepText readingPython.str textManifest := by
  intro key member items iterated path held
  simp only [List.mem_cons, List.not_mem_nil, or_false] at member
  obtain rfl | rfl := member
  · cases iterated
    cases List.mem_singleton.mp held
    rfl
  · cases iterated
    cases held

end Sample

end Gyza

import Gyza.Delegation
import Gyza.Lib.PyValue

/-! The signing gate of the runner (`enforcement_satisfies_manifest` of
`gyza/sandbox/config.py`) beside the delegation gate, both over untyped records. -/

namespace Gyza

open PyValue (Collection Fields Value dictGet subDict)

-- `str(p)` of a path; both gates call it on the same values
variable (str : Value → String)

/-- `{str(p) for p in items if p}`. -/
def pathSet (items : List Value) : Finset String := ((items.filter Value.truthy).map str).toFinset

def strset : Value → Finset String
  | .collection _ items => pathSet str items
  | _ => ∅

/-! The blocks of a manifest that either gate reads. -/

def manifestBlock (manifest : Value) (name : String) : Fields :=
  subDict (subDict manifest.fields "capabilities") name

def manifestPaths (manifest : Value) (key : String) : Value :=
  dictGet (manifestBlock manifest "filesystem") key Value.emptyList

def allowedHosts (manifest : Value) : Value :=
  dictGet (manifestBlock manifest "network") "allowed_hosts" .none

def resourceBudget (manifest : Value) (key : String) : Value :=
  dictGet (subDict (manifestBlock manifest "spawn") "resource_budget") key .none

def specFromManifest (manifest : Value) : CapabilitySpec where
  ro := strset str (manifestPaths manifest "read")
  rw := strset str (manifestPaths manifest "write")
  network := (allowedHosts manifest).truthy
  memCap := (resourceBudget manifest "memory_limit_mb").positiveInt
  rateCap := (resourceBudget manifest "action_rate_cap").positiveInt

/-- Without a record, the widest claim. -/
def specFromEnforcement (enforcement : Value) : CapabilitySpec :=
  match enforcement with
  | .dict enf =>
      { ro := strset str (dictGet enf "ro_paths" Value.emptyList)
        rw := strset str (dictGet enf "rw_paths" Value.emptyList)
        network := (dictGet enf "requires_network" .none).truthy
        memCap := (dictGet enf "max_memory_mb" .none).positiveInt }
  | _ => { network := true }

/-! The signing gate. -/

inductive GateFault where
  | noRecord
  | notEnforcing (backend : Value)
  | undeclared (field : String)
  | notCollection (field : String)
  | readPaths (beyond : List String)
  | writePaths (beyond : List String)
  | networkOpened
  | memoryUncapped (limit : Int)
  | memoryMalformed (bound : Value)
  | memoryAbove (bound limit : Int)

inductive Raised where
  | attributeError
  | typeError

def isBubblewrap : Value → Bool
  | .str backend => backend = "bubblewrap"
  | _ => false

/-- A path field of the record must be there, and be a list, a tuple or a set. -/
def declaredPaths (enf : Fields) (field : String) : Except GateFault (List Value) :=
  match enf.lookup field with
  | none => .error (.undeclared field)
  | some (.collection kind items) =>
      if kind = .frozenset then .error (.notCollection field) else .ok items
  | some _ => .error (.notCollection field)

def checkMemory (bound limit : Value) : Except GateFault Unit :=
  match limit.positiveInt with
  | none => .ok ()
  | some manifestMem =>
      match bound with
      | .none => .error (.memoryUncapped manifestMem)
      | _ =>
          match bound.positiveInt with
          | none => .error (.memoryMalformed bound)
          | some enfMem =>
              if manifestMem < enfMem then .error (.memoryAbove enfMem manifestMem) else .ok ()

def checkBounds (enf : Fields) (manifest : Value) (authRo authRw enfRo enfRw : Finset String) :
    Except GateFault Unit :=
  if ¬enfRo ⊆ authRo then .error (.readPaths (pathsBeyond enfRo authRo))
  else if ¬enfRw ⊆ authRw then .error (.writePaths (pathsBeyond enfRw authRw))
  else if (dictGet enf "requires_network" .none).truthy ∧ ¬(allowedHosts manifest).truthy then
    .error .networkOpened
  else checkMemory (dictGet enf "max_memory_mb" .none) (resourceBudget manifest "memory_limit_mb")

/-- The second half of the gate: the manifest is opened and the bounds are compared. -/
def satisfiesBounds (enf : Fields) (roPaths rwPaths : List Value) (manifest : Value) :
    Except Raised (Except GateFault Unit) :=
  match manifest with
  | .dict _ =>
      match (manifestPaths manifest "read").iterate, (manifestPaths manifest "write").iterate with
      | some read, some write =>
          .ok (checkBounds enf manifest (pathSet str read) (pathSet str write)
            (pathSet str roPaths) (pathSet str rwPaths))
      | _, _ => .error .typeError
  | _ => .error .attributeError

/-- The outer result is whether the call raised, the inner one its verdict. -/
def enforcementSatisfiesManifest (enforcement manifest : Value) :
    Except Raised (Except GateFault Unit) :=
  match enforcement with
  | .dict enf =>
      if isBubblewrap (dictGet enf "backend" .none) = false then
        .ok (.error (.notEnforcing (dictGet enf "backend" .none)))
      else
        match declaredPaths enf "ro_paths", declaredPaths enf "rw_paths" with
        | .error fault, _ => .ok (.error fault)
        | .ok _, .error fault => .ok (.error fault)
        | .ok roPaths, .ok rwPaths =>
            if (enf.lookup "requires_network").isNone then
              .ok (.error (.undeclared "requires_network"))
            else satisfiesBounds str enf roPaths rwPaths manifest
  | _ => .ok (.error .noRecord)

/-! What the signing gate has checked of a record it accepts. -/

theorem declaredPaths_ok {enf : Fields} {field : String} {items : List Value}
    (declared : declaredPaths enf field = .ok items) :
    strset str (dictGet enf field Value.emptyList) = pathSet str items := by
  unfold declaredPaths at declared
  split at declared
  · cases declared
  · rename_i kind found stored
    split_ifs at declared
    cases declared
    simp [dictGet, stored, strset]
  · cases declared

theorem checkMemory_ok {bound limit : Value} (checked : checkMemory bound limit = .ok ()) :
    capBound bound.positiveInt ≤ capBound limit.positiveInt := by
  unfold checkMemory at checked
  split at checked
  · rename_i uncapped
    simp [uncapped, capBound]
  · rename_i manifestMem capped
    split at checked
    · cases checked
    split at checked
    · cases checked
    rename_i enfMem positive
    split_ifs at checked with above
    simpa [capped, positive, capBound] using above

/-- What the signing gate compares, in the terms of the delegation gate. -/
structure GateAccepts (enforcement manifest : Value) : Prop where
  isDict : enforcement = .dict enforcement.fields
  reads : ∃ read, (manifestPaths manifest "read").iterate = some read ∧
    (specFromEnforcement str enforcement).ro ⊆ pathSet str read
  writes : ∃ write, (manifestPaths manifest "write").iterate = some write ∧
    (specFromEnforcement str enforcement).rw ⊆ pathSet str write
  network : (specFromEnforcement str enforcement).network ≤ (specFromManifest str manifest).network
  memory : capBound (specFromEnforcement str enforcement).memCap ≤
    capBound (specFromManifest str manifest).memCap

variable {str}

theorem checkBounds_ok {enf : Fields} {manifest : Value} {authRo authRw enfRo enfRw : Finset String}
    (checked : checkBounds enf manifest authRo authRw enfRo enfRw = .ok ()) :
    enfRo ⊆ authRo ∧ enfRw ⊆ authRw ∧
      ((dictGet enf "requires_network" .none).truthy → (allowedHosts manifest).truthy) ∧
      capBound (dictGet enf "max_memory_mb" .none).positiveInt ≤
        capBound (resourceBudget manifest "memory_limit_mb").positiveInt := by
  unfold checkBounds at checked
  split_ifs at checked with reads writes opened
  refine ⟨reads, writes, ?_, checkMemory_ok checked⟩
  intro opens
  by_contra closed
  exact opened ⟨opens, closed⟩

theorem enforcementSatisfiesManifest_ok {enforcement manifest : Value}
    (accepted : enforcementSatisfiesManifest str enforcement manifest = .ok (.ok ())) :
    GateAccepts str enforcement manifest := by
  unfold enforcementSatisfiesManifest at accepted
  split at accepted
  · rename_i enf
    split at accepted
    · cases accepted
    split at accepted
    · cases accepted
    · cases accepted
    rename_i roPaths rwPaths declaredRo declaredRw
    split at accepted
    · cases accepted
    unfold satisfiesBounds at accepted
    split at accepted
    · rename_i fields
      split at accepted
      · rename_i read write iterated iterated'
        rcases checkBounds_ok (Except.ok.inj accepted) with ⟨reads, writes, network, memory⟩
        refine ⟨rfl, ⟨read, iterated, ?_⟩, ⟨write, iterated', ?_⟩, ?_, memory⟩
        · rw [specFromEnforcement, declaredPaths_ok str declaredRo]
          exact reads
        · rw [specFromEnforcement, declaredPaths_ok str declaredRw]
          exact writes
        · exact Bool.le_iff_imp.mpr network
      · cases accepted
    · cases accepted
  · cases accepted

/-! Where the two gates can part. -/

theorem pathSet_eq_empty (items : List Value) :
    pathSet str items = ∅ ↔ ∀ path ∈ items, path.truthy = false := by
  simp only [pathSet, List.toFinset_eq_empty_iff, List.map_eq_nil_iff, List.filter_eq_nil_iff,
    Bool.not_eq_true]

/-- The paths the record declares under `field`, the empty ones left out. -/
def GrantsPath (enforcement : Value) (field : String) : Prop :=
  ∃ kind items, dictGet enforcement.fields field Value.emptyList = .collection kind items ∧
    ∃ path ∈ items, path.truthy = true

/-- The manifest lists its paths in a collection, or the record grants none. -/
def PathsListed (enforcement manifest : Value) (field key : String) : Prop :=
  (manifestPaths manifest key).isCollection = true ∨ ¬GrantsPath enforcement field

theorem strset_eq_empty (value : Value) :
    strset str value = ∅ ↔
      ¬∃ kind items, value = .collection kind items ∧ ∃ path ∈ items, path.truthy = true := by
  cases value with
  | collection kind items =>
      rw [strset, pathSet_eq_empty]
      simp
  | _ => simp [strset]

/-- Both gates read a collection alike; a text or a dictionary is empty to the second. -/
theorem subset_strset_iff {granted declared : Value} {items : List Value}
    (iterated : declared.iterate = some items) (within : strset str granted ⊆ pathSet str items) :
    strset str granted ⊆ strset str declared ↔ declared.isCollection = true ∨
      ¬∃ kind items, granted = .collection kind items ∧ ∃ path ∈ items, path.truthy = true := by
  have emptied : strset str granted = ∅ ↔ _ := strset_eq_empty granted
  rw [← emptied]
  cases declared with
  | collection kind listed =>
      cases iterated
      simp only [Value.isCollection, true_or, iff_true]
      exact within
  | _ => simp [strset, Value.isCollection]

/-- What the signing gate accepts, the delegation gate accepts exactly when the
manifest sets no action rate and lists the paths the record grants. -/
theorem gates_agree_iff (str : Value → String) (enforcement manifest : Value)
    (accepted : enforcementSatisfiesManifest str enforcement manifest = .ok (.ok ())) :
    capabilitySubset (specFromEnforcement str enforcement) (specFromManifest str manifest) =
        .ok () ↔
      (resourceBudget manifest "action_rate_cap").positiveInt = none ∧
        PathsListed enforcement manifest "ro_paths" "read" ∧
        PathsListed enforcement manifest "rw_paths" "write" := by
  rcases enforcementSatisfiesManifest_ok accepted with
    ⟨isDict, ⟨read, iterated, reads⟩, ⟨write, iterated', writes⟩, network, memory⟩
  have spec : specFromEnforcement str enforcement =
      { ro := strset str (dictGet enforcement.fields "ro_paths" Value.emptyList)
        rw := strset str (dictGet enforcement.fields "rw_paths" Value.emptyList)
        network := (dictGet enforcement.fields "requires_network" .none).truthy
        memCap := (dictGet enforcement.fields "max_memory_mb" .none).positiveInt } := by
    rw [isDict]
    rfl
  have rate : capBound (specFromEnforcement str enforcement).rateCap ≤
      capBound (specFromManifest str manifest).rateCap ↔
        (resourceBudget manifest "action_rate_cap").positiveInt = none := by
    rw [spec]
    change capBound none ≤ capBound (resourceBudget manifest "action_rate_cap").positiveInt ↔ _
    cases (resourceBudget manifest "action_rate_cap").positiveInt with
    | none => simp
    | some cap => simp [capBound]
  have listed : (specFromEnforcement str enforcement).ro ⊆ (specFromManifest str manifest).ro ↔
      PathsListed enforcement manifest "ro_paths" "read" := by
    rw [spec] at reads ⊢
    exact subset_strset_iff iterated reads
  have listed' : (specFromEnforcement str enforcement).rw ⊆ (specFromManifest str manifest).rw ↔
      PathsListed enforcement manifest "rw_paths" "write" := by
    rw [spec] at writes ⊢
    exact subset_strset_iff iterated' writes
  rw [capabilitySubset_ok, CapabilitySpec.le_iff, rate, listed, listed']
  constructor
  · rintro ⟨ro, rw', -, -, uncapped⟩
    exact ⟨uncapped, ro, rw'⟩
  · rintro ⟨uncapped, ro, rw'⟩
    exact ⟨ro, rw', network, memory, uncapped⟩

namespace Sample

/-- `str(p)`, as far as the records below go. -/
def pathText : Value → String
  | .str text => text
  | _ => ""

def enforcementRecord (roPaths : List String) : Value :=
  .dict [("backend", .str "bubblewrap"),
    ("ro_paths", .collection .list (roPaths.map .str)),
    ("rw_paths", .collection .list []),
    ("requires_network", .bool false),
    ("max_memory_mb", .int 256)]

def agentManifest (read : Value) (budget : Fields) : Value :=
  .dict [("capabilities", .dict [("filesystem", .dict [("read", read)]),
    ("spawn", .dict [("resource_budget", .dict budget)])])]

end Sample

theorem gates_agree_sample :
    capabilitySubset (specFromEnforcement Sample.pathText (Sample.enforcementRecord ["/a"]))
      (specFromManifest Sample.pathText (Sample.agentManifest (.collection .list [.str "/a"])
        [("memory_limit_mb", .int 512)])) = .ok () :=
  (gates_agree_iff Sample.pathText (Sample.enforcementRecord ["/a"])
    (Sample.agentManifest (.collection .list [.str "/a"]) [("memory_limit_mb", .int 512)])
    rfl).mpr ⟨rfl, Or.inl rfl, Or.inl rfl⟩

/-- A declared action rate, or a path written as a text, passes the first gate only. -/
theorem gates_disagree :
    (enforcementSatisfiesManifest Sample.pathText (Sample.enforcementRecord ["/a"])
        (Sample.agentManifest (.collection .list [.str "/a"]) [("action_rate_cap", .int 25)]) =
          .ok (.ok ()) ∧
      capabilitySubset (specFromEnforcement Sample.pathText (Sample.enforcementRecord ["/a"]))
        (specFromManifest Sample.pathText
          (Sample.agentManifest (.collection .list [.str "/a"]) [("action_rate_cap", .int 25)])) =
          .error (.rate (.undeclared 25))) ∧
    (enforcementSatisfiesManifest Sample.pathText (Sample.enforcementRecord ["/"])
        (Sample.agentManifest (.str "/data") []) = .ok (.ok ()) ∧
      capabilitySubset (specFromEnforcement Sample.pathText (Sample.enforcementRecord ["/"]))
        (specFromManifest Sample.pathText (Sample.agentManifest (.str "/data") [])) =
          .error (.readPaths ["/"])) := by
  exact ⟨⟨rfl, by decide +kernel⟩, rfl, by decide +kernel⟩

end Gyza

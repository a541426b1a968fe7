import Gyza.HarmRegistry

/-! What a guard may claim: `readiness` of `gyza/containment/engine.py`, the search for the
authority's private key (`authority_key_is_colocated` of `guardconfig.py`), and the registries
that `build_registries` of `gyza_model.py` sets up. -/

namespace Gyza

open CanonJson (Doc)
open Hex (Bytes)
open PyNumber (FloatFormat Number)

namespace Guard

variable {φ σ : Type}

/-! The authority's key on this host. -/

/-- The file system, and the public half of a private key. -/
structure KeyFiles where
  /-- `Path(c).expanduser()`; `none` where it raises. -/
  expanduser : String → Option String
  readBytes : String → Option Bytes
  publicOf : Bytes → Bytes

def keyAt (files : KeyFiles) (path : String) : Option String :=
  (files.readBytes path).bind fun raw =>
    if raw.length < 32 then none else some (Hex.encode (files.publicOf (raw.take 32)))

/-- The first candidate that holds the key; `none` where the search raises. -/
def findKey (files : KeyFiles) (pubkeyHex : String) : List String → Option (Option String)
  | [] => some none
  | candidate :: rest =>
      match files.expanduser candidate with
      | none => none
      | some path =>
          if keyAt files path = some pubkeyHex then some (some path)
          else findKey files pubkeyHex rest

def defaultCandidates : List String :=
  ["~/.gyza/authority.key", "~/.gyza-authority/authority.key", "~/gyza-keys/authority.key",
    "~/.config/gyza/authority.key", "~/authority.key", "./authority.key",
    "./authority/authority.key"]

/-- `search or [...]`. -/
def candidates : Option (List String) → List String
  | some (first :: rest) => first :: rest
  | _ => defaultCandidates

def authorityKeyIsColocated (files : KeyFiles) (pubkeyHex : String)
    (search : Option (List String)) : Option (Option String) :=
  findKey files pubkeyHex (candidates search)

/-! Readiness. -/

abbrev Invariants (σ : Type) := Table (Staging.Invariant.id : Staging.Invariant σ ℚ → String)

structure Readiness where
  harmClasses : List String
  driftClasses : List (String × Option DriftClass)
  boundedButOnlyATimer : List String
  unclassifiedDrift : List String
  unbounded : List String
  mutableFrames : List String
  uncovered : List String
  boundsProvenance : BoundsProvenance
  boundsSigned : Bool
  authorityKeyColocated : Option String
  canClaimContainment : Bool

namespace HarmModelRegistry

def ids (registry : HarmModelRegistry σ) : List String :=
  registry.classes.rows.map fun hc => hc.id

def unbounded (registry : HarmModelRegistry σ) : List String :=
  ((registry.classes.rows.filter fun hc => hc.bound = none).map fun hc => hc.id).insertionSort
    (· ≤ ·)

def mutableFrames (registry : HarmModelRegistry σ) : List String :=
  ((registry.classes.rows.filter fun hc => hc.frameMutable).map fun hc => hc.id).insertionSort
    (· ≤ ·)

def timers (registry : HarmModelRegistry σ) : List String :=
  (registry.classes.rows.filter fun hc =>
    hc.bound ≠ none ∧ hc.driftClass = some .timer).map fun hc => hc.id

def unclassified (registry : HarmModelRegistry σ) : List String :=
  (registry.classes.rows.filter fun hc => hc.driftClass = none).map fun hc => hc.id

end HarmModelRegistry

/-- `uncovered` of the invariant registry. -/
def uncovered (invariants : Invariants σ) (ids : List String) : List String :=
  (ids.dedup.filter fun id => id ∉ invariants.rows.map Staging.Invariant.harmClass).insertionSort
    (· ≤ ·)

/-- Where the key lies beside the agents it constrains; not knowing counts as lying there. -/
def colocated (files : KeyFiles) (provenance : BoundsProvenance) (search : Option (List String)) :
    Option String :=
  if provenance.trusted ∧ provenance.authorityPubkeyHex ≠ "" then
    (authorityKeyIsColocated files provenance.authorityPubkeyHex search).getD (some "UNDETERMINED")
  else none

def readiness (files : KeyFiles) (registry : HarmModelRegistry σ) (invariants : Invariants σ)
    (search : Option (List String)) : Readiness where
  harmClasses := registry.ids
  driftClasses := registry.classes.rows.map fun hc => (hc.id, hc.driftClass)
  boundedButOnlyATimer := registry.timers
  unclassifiedDrift := registry.unclassified
  unbounded := registry.unbounded
  mutableFrames := registry.mutableFrames
  uncovered := uncovered invariants registry.ids
  boundsProvenance := registry.provenance
  boundsSigned := registry.provenance.trusted
  authorityKeyColocated := colocated files registry.provenance search
  canClaimContainment :=
    registry.unbounded = [] ∧ uncovered invariants registry.ids = [] ∧
      registry.provenance.trusted ∧ colocated files registry.provenance search = none ∧
      registry.timers = [] ∧ registry.unclassified = []

/-- The engine over the registries. -/
def engineOf (registry : HarmModelRegistry σ) (invariants : Invariants σ)
    (rev : Staging.ReversibilityTable) : Staging.GuardEngine σ ℚ where
  harm := ⟨registry.classes.rows.map HarmClass.toHarmClass, by
    rw [List.map_map]
    exact registry.classes.distinct⟩
  invariants := invariants
  rev := rev

/-- The default predicate of an invariant. -/
def boundedBy (measured bound : ℚ) (_ _ : σ) : Bool := measured ≤ bound

/-! What a claim says of the registries. -/

theorem unbounded_nil_iff (registry : HarmModelRegistry σ) :
    registry.unbounded = [] ↔ ∀ hc ∈ registry.classes.rows, hc.bound ≠ none := by
  rw [HarmModelRegistry.unbounded, ← List.length_eq_zero_iff, List.length_insertionSort,
    List.length_eq_zero_iff, List.map_eq_nil_iff, List.filter_eq_nil_iff]
  simp

theorem uncovered_nil_iff (invariants : Invariants σ) (ids : List String) :
    uncovered invariants ids = [] ↔
      ∀ id ∈ ids, ∃ inv ∈ invariants.rows, inv.harmClass = id := by
  rw [uncovered, ← List.length_eq_zero_iff, List.length_insertionSort,
    List.length_eq_zero_iff, List.filter_eq_nil_iff]
  simp

/-- What a claim of containment rests on. -/
theorem claims_iff (files : KeyFiles) (registry : HarmModelRegistry σ) (invariants : Invariants σ)
    (search : Option (List String)) :
    (readiness files registry invariants search).canClaimContainment = true ↔
      registry.provenance.trusted = true ∧
        colocated files registry.provenance search = none ∧
        ∀ hc ∈ registry.classes.rows, hc.bound ≠ none ∧ hc.driftClass ≠ none ∧
          hc.driftClass ≠ some .timer ∧ ∃ inv ∈ invariants.rows, inv.harmClass = hc.id := by
  simp only [readiness, decide_eq_true_eq, unbounded_nil_iff, uncovered_nil_iff,
    HarmModelRegistry.ids, HarmModelRegistry.timers, HarmModelRegistry.unclassified,
    List.map_eq_nil_iff, List.filter_eq_nil_iff, List.forall_mem_map]
  constructor
  · rintro ⟨bounded, covered, trusted, apart, timers, classified⟩
    refine ⟨trusted, apart, ?_⟩
    intro hc listed
    exact ⟨bounded hc listed, by simpa using classified hc listed,
      fun timer => timers hc listed ⟨bounded hc listed, timer⟩, covered hc listed⟩
  · rintro ⟨trusted, apart, all⟩
    refine ⟨fun hc listed => (all hc listed).1, fun hc listed => (all hc listed).2.2.2, trusted,
      apart, ?_, ?_⟩
    · intro hc listed timer
      exact (all hc listed).2.2.1 timer.2
    · intro hc listed
      simpa using (all hc listed).2.1

theorem findKey_none {files : KeyFiles} {pubkeyHex : String} {search : List String}
    (absent : findKey files pubkeyHex search = some none) :
    ∀ candidate ∈ search, ∃ path, files.expanduser candidate = some path ∧
      keyAt files path ≠ some pubkeyHex := by
  induction search with
  | nil => simp
  | cons candidate rest ih =>
      rw [findKey] at absent
      rw [List.forall_mem_cons]
      cases expanded : files.expanduser candidate with
      | none => simp [expanded] at absent
      | some path =>
          simp only [expanded] at absent
          split_ifs at absent with held
          · simp at absent
          · exact ⟨⟨path, rfl, held⟩, ih absent⟩

/-- None of the places that were searched holds the private half of the key. -/
def KeyApart (files : KeyFiles) (authority : Bytes) (search : Option (List String)) : Prop :=
  ∀ candidate ∈ candidates search, ∃ path, files.expanduser candidate = some path ∧
    keyAt files path ≠ some (Hex.encode authority)

theorem Signed.authority {crypto : Crypto} {format : FloatFormat φ} {cfg : VerifiedGuardConfig φ}
    (signed : Signed crypto format cfg) :
    ∃ config signatureHex authority,
      verifyConfig crypto format config signatureHex authority = true ∧
        cfg = verified crypto format authority config signatureHex ∧
        cfg.authorityPubkeyHex = Hex.encode authority ∧ cfg.authorityPubkeyHex ≠ "" := by
  obtain ⟨config, signatureHex, authority, verifies, rfl⟩ := signed
  refine ⟨config, signatureHex, authority, verifies, rfl, rfl, ?_⟩
  apply Hex.encode_ne_empty
  rintro rfl
  rw [verifyConfig, verifyBytes] at verifies
  split at verifies
  · cases verifies
  · simp at verifies

/-- What the quantities read of a projected state. -/
structure GyzaState where
  authorityViolations : List String
  /-- `None` counts as zero. -/
  irreversibleActions : Option Int
  storedBytes : Int
  meshExitBytesInWindow : Int

def authorityExceedance (_ s : GyzaState) : ℚ := s.authorityViolations.length

def irreversibleActions (s0 s : GyzaState) : ℚ :=
  ((max 0 (s.irreversibleActions.getD 0 - s0.irreversibleActions.getD 0) : Int) : ℚ)

def storageGrowth (s0 s : GyzaState) : ℚ := ((s.storedBytes - s0.storedBytes : Int) : ℚ)

def meshExitRate (_ s : GyzaState) : ℚ := ((s.meshExitBytesInWindow : Int) : ℚ)

def gyzaClasses : List (HarmClass GyzaState) :=
  [{ id := "H4_authority"
     quantity := authorityExceedance
     bound := none
     frame := "delegation chain root manifest"
     frameMutable := false
     driftClass := some .silence },
   { id := "H7_irreversible_actions"
     quantity := irreversibleActions
     bound := none
     frame := "signed enforcement records since the accounting origin"
     frameMutable := false
     driftClass := some .silence },
   { id := "H5_storage_growth"
     quantity := storageGrowth
     bound := none
     frame := "the local artifact store"
     frameMutable := false
     driftClass := some .capacity },
   { id := "H3_mesh_exit_rate"
     quantity := meshExitRate
     bound := none
     frame := "the local egress log over a trailing window"
     frameMutable := false
     driftClass := some .detection }]

def gyzaInvariants : Invariants GyzaState where
  rows :=
    [⟨"INV-H3-mesh-exit-rate", "H3_mesh_exit_rate", .cumulative, boundedBy⟩,
      ⟨"INV-H4-attenuation", "H4_authority", .monotoneNonCumulative, boundedBy⟩,
      ⟨"INV-H7-irreversibility", "H7_irreversible_actions", .monotoneNonCumulative, boundedBy⟩,
      ⟨"INV-H5-storage", "H5_storage_growth", .cumulative, boundedBy⟩]
  distinct := by decide

def gyzaRegistry : HarmModelRegistry GyzaState := ⟨⟨gyzaClasses, by decide⟩, unsetProvenance⟩

/-- A bounds file that can be read: an envelope with a configuration and its signature, or
another document. -/
inductive BoundsFile (φ : Type) where
  | envelope (config : GuardConfig φ) (signatureHex : String)
  | plain (data : Doc φ)

def BoundsFile.toDoc : BoundsFile φ → Doc φ
  | .envelope config signatureHex =>
      .obj [("config", config.toDoc), ("signature", .str signatureHex)]
  | .plain data => data

inductive BuildError where
  /-- `UnsignedBoundsError`: no file, no envelope, or one that does not verify. -/
  | unsignedBounds
  | install (cause : GuardError)
  | harm (error : HarmError)

/-- What is pushed into the registry, or raised. -/
def loadedOr (result : HarmModelRegistry GyzaState × Option HarmError) :
    Except BuildError (HarmModelRegistry GyzaState) :=
  match result with
  | (registry, none) => .ok registry
  | (_, some error) => .error (.harm error)

section Build

variable (crypto : Crypto) (format : FloatFormat φ)

/-- The harm registry and the history file that are left; the file's name is `name`. -/
def buildRegistries (history : List (HistoryRecord φ)) (name : String)
    (file : Option (BoundsFile φ)) (authority : Option Bytes) (now : Int) :
    Except BuildError (HarmModelRegistry GyzaState × List (HistoryRecord φ)) :=
  match authority, file with
  | none, none => .ok (gyzaRegistry, history)
  | none, some file => do
      let registry ← loadedOr (loadBoundsFile format gyzaRegistry name file.toDoc)
      pure (registry, history)
  | some key, some (.envelope config signatureHex) =>
      match load crypto format (freshStore key) history config signatureHex now with
      | .error cause =>
          .error (if isGuardConfigError cause then .unsignedBounds else .install cause)
      | .ok (store, history, cfg) => do
          let registry ← loadedOr (loadBounds format gyzaRegistry cfg.bounds
            (some (signedProvenance store cfg)))
          pure (registry, history)
  | some _, _ => .error .unsignedBounds

end Build

/-- Every class that is registered has an invariant and a bound that is no timer, and none a
level. -/
theorem gyzaClasses_ready : ∀ hc ∈ gyzaClasses, hc.bound = none ∧ hc.driftClass ≠ none ∧
    hc.driftClass ≠ some .timer ∧ ∃ inv ∈ gyzaInvariants.rows, inv.harmClass = hc.id := by
  simp [gyzaClasses, gyzaInvariants]

theorem loads_iff (format : FloatFormat φ) (registry : HarmModelRegistry σ) (bounds : Bounds φ) :
    Loads format registry bounds ↔ ∀ declared ∈ bounds, declared.1 ∈ registry.ids ∧
      ∃ bound level, declared.2 = some bound ∧ floatOf format bound = .ok level := by
  refine forall₂_congr fun declared _ => ?_
  have known : (registry.classes.get? declared.1).isSome ↔ declared.1 ∈ registry.ids := by
    rw [← Option.ne_none_iff_isSome, ne_eq, Table.get?_eq_none, not_not]
    rfl
  rw [entryLevel, ← known]
  cases given : declared.2 with
  | none => simp
  | some bound =>
      cases read : floatOf format bound with
      | error error => simp [read, Except.toOption]
      | ok level => by_cases inside : (registry.classes.get? declared.1).isSome <;>
          simp [read, inside, Except.toOption]

/-- What the four classes need for a claim on levels that were just loaded. -/
theorem loaded_claims_iff (format : FloatFormat φ) (files : KeyFiles) (bounds : Bounds φ)
    (provenance : BoundsProvenance) (search : Option (List String))
    (loads : Loads format gyzaRegistry bounds) :
    (readiness files (loadBounds format gyzaRegistry bounds (some provenance)).1 gyzaInvariants
        search).canClaimContainment = true ↔
      provenance.trusted = true ∧ colocated files provenance search = none ∧
        ∀ hc ∈ gyzaClasses, hc.id ∈ bounds.map Prod.fst := by
  have stamp := (loadBounds_spec gyzaRegistry bounds (some provenance)).2.2.1 loads
  rw [claims_iff, stamp, Option.getD_some]
  refine and_congr_right fun _ => and_congr_right fun _ => ?_
  constructor
  · intro all hc listed
    have bounded := (all _ (GuardedHost.loaded_row format gyzaRegistry bounds (some provenance)
      listed)).1
    cases last : (writtenLevels format gyzaRegistry bounds).reverse.lookup hc.id with
    | none => simp [levelAfter, last, (gyzaClasses_ready hc listed).1] at bounded
    | some level =>
        rw [← GuardedHost.writtenLevels_all loads]
        exact List.mem_map_of_mem (GuardedHost.lastWritten_mem last)
  · intro named loaded listed
    obtain ⟨hc, stored, rfl⟩ := (GuardedHost.mem_loadBounds _ _ _ _).mp listed
    obtain ⟨-, classified, sound, covered⟩ := gyzaClasses_ready hc stored
    refine ⟨?_, classified, sound, covered⟩
    intro unset
    cases last : (writtenLevels format gyzaRegistry bounds).reverse.lookup hc.id with
    | none => exact GuardedHost.lastWritten_none loads last (named hc stored)
    | some level => simp [levelAfter, last] at unset

theorem loadedOr_ok {result : HarmModelRegistry GyzaState × Option HarmError}
    {registry : HarmModelRegistry GyzaState} :
    loadedOr result = .ok registry ↔ result = (registry, none) := by
  obtain ⟨loaded, error⟩ := result
  cases error with
  | none => simp [loadedOr]
  | some error => simp [loadedOr]

/-- Bounds that no key was asked about give no claim. -/
theorem unsigned_file_claims_nothing {format : FloatFormat φ} {name : String} {data : Doc φ}
    {registry : HarmModelRegistry GyzaState} (files : KeyFiles) (search : Option (List String))
    (loaded : loadBoundsFile format gyzaRegistry name data = (registry, none)) :
    (readiness files registry gyzaInvariants search).canClaimContainment = false := by
  rw [loadBoundsFile] at loaded
  cases read : fileBounds format name data with
  | none => simp [read] at loaded
  | some pair =>
      obtain ⟨bounds, provenance⟩ := pair
      simp only [read] at loaded
      have untrusted := GuardedHost.fileBounds_untrusted read
      have loads := (loadBounds_spec gyzaRegistry bounds (some provenance)).2.1.mp
        (congrArg Prod.snd loaded)
      have registry_eq : (loadBounds format gyzaRegistry bounds (some provenance)).1 = registry :=
        congrArg Prod.fst loaded
      rw [← Bool.not_eq_true, ← registry_eq, loaded_claims_iff format files bounds provenance search
        loads, untrusted]
      simp

/-- The search for a key that is named finds nothing. -/
theorem colocated_none_iff {files : KeyFiles} {provenance : BoundsProvenance}
    {search : Option (List String)} (trusted : provenance.trusted = true)
    (named : provenance.authorityPubkeyHex ≠ "") :
    colocated files provenance search = none ↔
      authorityKeyIsColocated files provenance.authorityPubkeyHex search = some none := by
  rw [colocated, if_pos ⟨trusted, named⟩]
  cases authorityKeyIsColocated files provenance.authorityPubkeyHex search with
  | none => simp
  | some result => simp

/-- A store that has just installed its first configuration. -/
def startedStore (key : Bytes) (cfg : VerifiedGuardConfig φ) : GuardConfigStore φ :=
  ⟨key, key, some cfg, [], []⟩

/-- With a key and an envelope, the claim on what is built is that on what was loaded. -/
theorem build_envelope_iff (crypto : Crypto) (format : FloatFormat φ)
    (history : List (HistoryRecord φ)) (name : String) (config : GuardConfig φ)
    (signatureHex : String) (key : Bytes) (now : Int) (registry : HarmModelRegistry GyzaState)
    (history' : List (HistoryRecord φ)) :
    buildRegistries crypto format history name (some (.envelope config signatureHex)) (some key)
        now = .ok (registry, history') ↔
      ∃ cfg, vetInstall crypto format (freshStore key) history config signatureHex false =
          .ok cfg ∧
        history' = history ++ [installRecord cfg (lastLink crypto format history) now] ∧
        loadBounds format gyzaRegistry cfg.bounds
          (some (signedProvenance (startedStore key cfg) cfg)) = (registry, none) := by
  simp only [buildRegistries, load, install]
  cases vetted : vetInstall crypto format (freshStore key) history config signatureHex false with
  | error cause => simp [bind, Except.bind]
  | ok cfg =>
      have started : ({ (freshStore key : GuardConfigStore φ) with cfg := some cfg } :
          GuardConfigStore φ) = startedStore key cfg := rfl
      simp only [bind, Except.bind, pure, Except.pure, Except.ok.injEq, exists_eq_left', started]
      cases pushed : loadedOr (loadBounds format gyzaRegistry cfg.bounds
          (some (signedProvenance (startedStore key cfg) cfg))) with
      | error error =>
          simp only [reduceCtorEq, false_iff, not_and]
          intro _ loaded
          cases pushed.symm.trans (loadedOr_ok.mpr loaded)
      | ok loaded =>
          rw [← loadedOr_ok, pushed]
          simp [and_comm, eq_comm]

/-- The registries that `build_registries` sets up claim containment just when a key was given
and the file is an envelope that installs under it after this history, whose bounds are numbers
for registered classes and name all four, and the search for the private half found nothing. -/
theorem build_claims_iff (crypto : Crypto) (format : FloatFormat φ)
    (history : List (HistoryRecord φ)) (name : String) (file : Option (BoundsFile φ))
    (authority : Option Bytes) (now : Int) (files : KeyFiles) (search : Option (List String)) :
    (∃ registry history', buildRegistries crypto format history name file authority now =
        .ok (registry, history') ∧
      (readiness files registry gyzaInvariants search).canClaimContainment = true) ↔
      ∃ key config signatureHex cfg, authority = some key ∧
        file = some (.envelope config signatureHex) ∧
        vetInstall crypto format (freshStore key) history config signatureHex false = .ok cfg ∧
        (∀ declared ∈ config.bounds.getD [], declared.1 ∈ gyzaRegistry.ids ∧
          ∃ bound level, declared.2 = some bound ∧ floatOf format bound = .ok level) ∧
        (∀ hc ∈ gyzaClasses, hc.id ∈ (config.bounds.getD []).map Prod.fst) ∧
        authorityKeyIsColocated files (Hex.encode key) search = some none := by
  constructor
  · rintro ⟨registry, history', built, claims⟩
    cases authority with
    | none =>
        cases file with
        | none =>
            cases built
            simp [claims_iff, gyzaRegistry, BoundsProvenance.trusted, unsetProvenance] at claims
        | some file =>
            simp only [buildRegistries, bind, Except.bind] at built
            split at built
            · cases built
            · rename_i loaded
              cases built
              rw [unsigned_file_claims_nothing files search (loadedOr_ok.mp loaded)] at claims
              cases claims
    | some key =>
        cases file with
        | none => cases built
        | some file =>
            cases file with
            | plain data => cases built
            | envelope config signatureHex =>
                obtain ⟨cfg, vetted, -, loaded⟩ := (build_envelope_iff crypto format history name
                  config signatureHex key now registry history').mp built
                have loads := (loadBounds_spec _ _ _).2.1.mp (congrArg Prod.snd loaded)
                have pushed : (loadBounds format gyzaRegistry cfg.bounds
                    (some (signedProvenance (startedStore key cfg) cfg))).1 = registry :=
                  congrArg Prod.fst loaded
                rw [← pushed, loaded_claims_iff _ _ _ _ _ loads] at claims
                obtain ⟨trusted, apart, names⟩ := claims
                obtain ⟨_, _, _, -, -, -, named⟩ := (GuardedHost.vetInstall_signed vetted).authority
                rw [colocated_none_iff trusted named] at apart
                cases (Host.vetInstall_ok vetted).1
                exact ⟨key, config, signatureHex, _, rfl, rfl, vetted,
                  (loads_iff format _ _).mp loads, names, apart⟩
  · rintro ⟨key, config, signatureHex, cfg, rfl, rfl, vetted, numbers, names, apart⟩
    obtain ⟨_, _, _, -, -, -, named⟩ := (GuardedHost.vetInstall_signed vetted).authority
    have same := (Host.vetInstall_ok vetted).1
    have loads : Loads format gyzaRegistry cfg.bounds := by
      rw [same]
      exact (loads_iff format _ _).mpr numbers
    have clean := (loadBounds_spec gyzaRegistry cfg.bounds
      (some (signedProvenance (startedStore key cfg) cfg))).2.1.mpr loads
    refine ⟨_, _, (build_envelope_iff crypto format history name config signatureHex key now _
      _).mpr ⟨cfg, vetted, rfl, Prod.ext rfl clean⟩, ?_⟩
    rw [loaded_claims_iff format files cfg.bounds _ search loads]
    refine ⟨rfl, ?_, ?_⟩
    · refine (colocated_none_iff rfl named).mpr ?_
      rw [same]
      exact apart
    · rw [same]
      exact names

/-! A host that does what `build_registries` does, and the claim it makes. -/

/-- Classes without levels, one configuration and one push are always allowed. -/
theorem build_allowed (crypto : Crypto) (format : FloatFormat φ) (quoted : String → String)
    (classes : List (HarmClass σ)) (unset : ∀ hc ∈ classes, hc.bound = none)
    (call : LooseningCall φ) (state : GuardedHost φ σ)
    (untrusted : state.registry.provenance.trusted = false)
    (empty : ∀ hc ∈ state.registry.classes.rows, hc.bound = none) :
    Run.Admissible (GuardedHost.step crypto format quoted) (GuardedHost.Allowed format) state
      (classes.map .register ++ [.config call, .applyTo]) := by
  induction classes generalizing state with
  | nil =>
      refine ⟨trivial, ?_, trivial⟩
      intro cfg _
      constructor
      · intro trusted
        exact absurd (untrusted.symm.trans trusted) (by simp)
      · intro _ hc listed bounded
        exact absurd (empty hc listed) bounded
  | cons first rest ih =>
      rw [List.forall_mem_cons] at unset
      constructor
      · intro trusted
        exact absurd (untrusted.symm.trans trusted) (by simp)
      · apply ih unset.2
        · simp only [GuardedHost.step, HarmModelRegistry.register]
          split_ifs <;> exact untrusted
        · simp only [GuardedHost.step, HarmModelRegistry.register]
          split_ifs
          · exact empty
          · intro hc listed
            rcases List.mem_append.mp listed with before | single
            · exact empty hc before
            · rw [List.mem_singleton.mp single]
              exact unset.1
          · exact empty

namespace Sample

open PyNumber (wholeFormat)

/-- Every signature verifies, and every hash is the empty one. -/
def openCrypto : Crypto := ⟨fun _ => [], fun _ _ _ => true⟩

def levels : GuardConfig Int :=
  Gyza.Sample.guardConfig 1 [("H4_authority", some (.int 0)),
    ("H7_irreversible_actions", some (.int 0)), ("H5_storage_growth", some (.int 100)),
    ("H3_mesh_exit_rate", some (.int 300))]

def pinned : Bytes := List.replicate 32 7

def buildCalls : List (GuardCall Int GyzaState) :=
  gyzaClasses.map .register ++ [.config (.call (.load levels "" 0)), .applyTo]

def built : GuardedHost Int GyzaState :=
  Run.run (GuardedHost.step openCrypto wholeFormat quoted) (GuardedHost.fresh pinned) buildCalls

def emptyHome : KeyFiles := ⟨some, fun _ => none, id⟩

def quiet : GyzaState := ⟨[], none, 0, 0⟩

def busy : GyzaState := ⟨[], some 0, 90, 250⟩

theorem built_claims :
    (readiness emptyHome built.registry gyzaInvariants none).canClaimContainment = true := by
  decide +kernel

theorem busy_admitted : ∃ decision,
    (engineOf built.registry gyzaInvariants Staging.defaultTable).evaluate quiet busy
      "settle_credits" .promotion none = .ok decision ∧ decision.admitted = true := by
  have admitted : ((engineOf built.registry gyzaInvariants Staging.defaultTable).evaluate quiet
      busy "settle_credits" .promotion none).toOption.map Staging.Decision.admitted =
        some true := by
    decide +kernel
  cases result : (engineOf built.registry gyzaInvariants Staging.defaultTable).evaluate quiet busy
      "settle_credits" .promotion none with
  | error error => simp [result, Except.toOption] at admitted
  | ok decision => exact ⟨decision, rfl, by simpa [result, Except.toOption] using admitted⟩

end Sample

end Guard

end Gyza

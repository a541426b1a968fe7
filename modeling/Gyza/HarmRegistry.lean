import Gyza.GuardLoosening
import Gyza.Staging

/-! The harm model registry (`gyza/containment/harm.py`), the levels a guard configuration
pushes into it (`apply_to` of `guardconfig.py`), and the runs of both.

A level that is set stays set when a later one of the same call is refused. -/

namespace Gyza

open CanonJson (Doc)
open Hex (Bytes)
open PyNumber (FloatFormat Number)

namespace Guard

variable {φ σ : Type}

/-- Who declared the bounds, and whether that was checked. -/
inductive BoundsSource where
  | signed
  | signedUnverified
  | unsignedFile
  | unset
  deriving DecidableEq

structure BoundsProvenance where
  source : BoundsSource
  detail : String
  authorityPubkeyHex : String := ""
  version : Option Int := none
  configHash : String := ""

def BoundsProvenance.trusted (provenance : BoundsProvenance) : Bool := provenance.source = .signed

def unsetProvenance : BoundsProvenance :=
  { source := .unset, detail := "no bounds have been loaded" }

inductive DriftClass where
  | silence
  | capacity
  | detection
  | timer
  deriving DecidableEq

/-- A harm class as it is registered; its quantity always gives a number. -/
structure HarmClass (σ : Type) extends Staging.HarmClass σ ℚ where
  frame : String
  frameMutable : Bool
  driftClass : Option DriftClass

abbrev HarmClasses (σ : Type) := Table (fun hc : HarmClass σ => hc.id)

inductive HarmError where
  | alreadyRegistered (id : String)
  | noFrame (id : String)
  | unknownClass (id : String)
  | notNumeric (id : String)
  | overflowError
  | attributeError

structure HarmModelRegistry (σ : Type) where
  classes : HarmClasses σ
  provenance : BoundsProvenance

namespace HarmModelRegistry

def empty : HarmModelRegistry σ := ⟨Table.empty, unsetProvenance⟩

def register (registry : HarmModelRegistry σ) (hc : HarmClass σ) :
    Except HarmError (HarmModelRegistry σ) :=
  if fresh : registry.classes.get? hc.id = none then
    if hc.frame = "" then .error (.noFrame hc.id)
    else .ok { registry with classes := registry.classes.append hc fresh }
  else .error (.alreadyRegistered hc.id)

/-- `replace(hc, bound=level)`, in the place of the class. -/
def setBound (registry : HarmModelRegistry σ) (id : String) (level : ℚ) : HarmModelRegistry σ where
  classes := registry.classes.update (fun hc => hc.id = id)
    (fun hc => { hc with bound := some level }) (fun _ => rfl)
  provenance := registry.provenance

end HarmModelRegistry

section Bounds

variable (format : FloatFormat φ)

/-- One turn of the loop of `load_bounds`; `none` stands for a value that is no number. -/
def applyLevel (registry : HarmModelRegistry σ) (declared : String × Option (Number φ)) :
    Except HarmError (HarmModelRegistry σ) :=
  match registry.classes.get? declared.1 with
  | none => .error (.unknownClass declared.1)
  | some _ =>
      match declared.2 with
      | none => .error (.notNumeric declared.1)
      | some bound =>
          match floatOf format bound with
          | .error _ => .error .overflowError
          | .ok level => .ok (registry.setBound declared.1 level)

def undeclaredProvenance : BoundsProvenance where
  source := .unsignedFile
  detail := "load_bounds() was called without a verified configuration"

/-- The registry after the call, and the exception it ended with. -/
def loadBounds (registry : HarmModelRegistry σ) (bounds : Bounds φ)
    (provenance : Option BoundsProvenance) : HarmModelRegistry σ × Option HarmError :=
  match Run.untilError (applyLevel format) registry bounds with
  | (loaded, none) => ({ loaded with provenance := provenance.getD undeclaredProvenance }, none)
  | (loaded, some error) => (loaded, some error)

/-- The number a JSON value is, where it is one. -/
def numberOf : Doc φ → Option (Number φ)
  | .int value => some (.int value)
  | .float value => some (.float value)
  | _ => none

def boundsOfFields (fields : List (String × Doc φ)) : Bounds φ :=
  fields.map fun field => (field.1, numberOf field.2)

/-- `data.get("config") or {}`: a document that counts as false is the empty one. -/
def falsy : Doc φ → Bool
  | .null => true
  | .bool value => !value
  | .int value => value = 0
  | .float value => format.value value = 0
  | .str text => text = ""
  | .arr items => items.isEmpty
  | .obj fields => fields.isEmpty

def configPart (data : Doc φ) : Doc φ :=
  match data.get "config" with
  | some config => if falsy format config then .obj [] else config
  | none => .obj []

def versionOf (config : Doc φ) : Option Int :=
  match config.get "version" with
  | some (.int version) => some version
  | _ => none

/-- What `load_bounds_file` loads of a document, and how it stamps it; `name` is the last
part of the path. -/
def fileBounds (name : String) (data : Doc φ) : Option (Bounds φ × BoundsProvenance) :=
  match data with
  | .obj entries =>
      if (data.get "config").isSome ∧ (data.get "signature").isSome then
        match configPart format data with
        | .obj config =>
            match ((Doc.obj config).get "bounds").getD (.obj []) with
            | .obj fields =>
                some (boundsOfFields fields,
                  { source := .signedUnverified
                    detail := "signed file " ++ name ++
                      ", no authority pubkey configured to verify against"
                    version := versionOf (.obj config) })
            | _ => none
        | _ => none
      else
        match (data.get "bounds").getD (.obj entries) with
        | .obj fields =>
            some (boundsOfFields fields,
              { source := .unsignedFile, detail := "plain file " ++ name })
        | _ => none
  | _ => none

def loadBoundsFile (registry : HarmModelRegistry σ) (name : String) (data : Doc φ) :
    HarmModelRegistry σ × Option HarmError :=
  match fileBounds format name data with
  | some (bounds, provenance) => loadBounds format registry bounds (some provenance)
  | none => (registry, some .attributeError)

/-- The stamp `apply_to` puts on the bounds; the detail names the key of today, the other
fields those the configuration was verified against. -/
def signedProvenance (store : GuardConfigStore φ) (cfg : VerifiedGuardConfig φ) :
    BoundsProvenance where
  source := .signed
  detail := "verified against authority " ++
    String.ofList ((Hex.encode store.authority).toList.take 16) ++ "…"
  authorityPubkeyHex := cfg.authorityPubkeyHex
  version := some cfg.version
  configHash := cfg.configHash

/-- `none` where nothing is installed, which raises before the registry is touched. -/
def applyTo (store : GuardConfigStore φ) (registry : HarmModelRegistry σ) :
    Option (VerifiedGuardConfig φ × HarmModelRegistry σ × Option HarmError) :=
  store.cfg.map fun cfg =>
    (cfg, loadBounds format registry cfg.bounds (some (signedProvenance store cfg)))

end Bounds

/-! What a call of `load_bounds` sets. -/

section Levels

variable (format : FloatFormat φ)

/-- The level an entry sets, none where the loop stops at it. -/
def entryLevel (registry : HarmModelRegistry σ) (declared : String × Option (Number φ)) :
    Option ℚ :=
  if (registry.classes.get? declared.1).isSome then
    declared.2.bind fun bound => (floatOf format bound).toOption
  else none

/-- The levels set before the loop stops, in order. -/
def writtenLevels (registry : HarmModelRegistry σ) : Bounds φ → List (String × ℚ)
  | [] => []
  | declared :: rest =>
      match entryLevel format registry declared with
      | some level => (declared.1, level) :: writtenLevels registry rest
      | none => []

/-- Every entry names a class and carries a number. -/
def Loads (registry : HarmModelRegistry σ) (bounds : Bounds φ) : Prop :=
  ∀ declared ∈ bounds, (entryLevel format registry declared).isSome

variable {format}

theorem applyLevel_some {registry : HarmModelRegistry σ} {declared : String × Option (Number φ)}
    {level : ℚ} (set : entryLevel format registry declared = some level) :
    applyLevel format registry declared = .ok (registry.setBound declared.1 level) := by
  rw [entryLevel] at set
  split_ifs at set with known
  obtain ⟨hc, found⟩ := Option.isSome_iff_exists.mp known
  obtain ⟨bound, given, read⟩ := Option.bind_eq_some_iff.mp set
  cases result : floatOf format bound with
  | error error => simp [result, Except.toOption] at read
  | ok value =>
      simp only [result, Except.toOption, Option.some.injEq] at read
      simp only [applyLevel, found, given, result, read]

theorem applyLevel_none {registry : HarmModelRegistry σ} {declared : String × Option (Number φ)}
    (refused : entryLevel format registry declared = none) :
    ∃ error, applyLevel format registry declared = .error error := by
  rw [entryLevel] at refused
  cases found : registry.classes.get? declared.1 with
  | none => exact ⟨.unknownClass declared.1, by simp only [applyLevel, found]⟩
  | some hc =>
      rw [if_pos (by rw [found]; rfl)] at refused
      cases given : declared.2 with
      | none => exact ⟨.notNumeric declared.1, by simp only [applyLevel, found, given]⟩
      | some bound =>
          cases result : floatOf format bound with
          | error error => exact ⟨.overflowError, by simp only [applyLevel, found, given, result]⟩
          | ok value => simp [given, result, Except.toOption] at refused

theorem get?_setBound (registry : HarmModelRegistry σ) (id other : String) (level : ℚ) :
    (registry.setBound id level).classes.get? other = (registry.classes.get? other).map fun hc =>
      if other = id then { hc with bound := some level } else hc := by
  rw [HarmModelRegistry.setBound, Table.get?_update]
  cases found : registry.classes.get? other with
  | none => rfl
  | some hc =>
      have same : hc.id = other := ((Table.get?_eq_some _ _ _).mp found).2
      simp [same]

theorem entryLevel_setBound (registry : HarmModelRegistry σ) (id : String) (level : ℚ)
    (declared : String × Option (Number φ)) :
    entryLevel format (registry.setBound id level) declared =
      entryLevel format registry declared := by
  rw [entryLevel, entryLevel, get?_setBound, Option.isSome_map]

theorem writtenLevels_setBound (registry : HarmModelRegistry σ) (id : String) (level : ℚ)
    (bounds : Bounds φ) :
    writtenLevels format (registry.setBound id level) bounds =
      writtenLevels format registry bounds := by
  induction bounds with
  | nil => rfl
  | cons declared rest ih => rw [writtenLevels, writtenLevels, entryLevel_setBound, ih]

theorem loads_setBound (registry : HarmModelRegistry σ) (id : String) (level : ℚ)
    (bounds : Bounds φ) :
    Loads format (registry.setBound id level) bounds ↔ Loads format registry bounds := by
  simp only [Loads, entryLevel_setBound]

/-- The level a class has after the call: the last one set for it, or its own. -/
def levelAfter (format : FloatFormat φ) (registry : HarmModelRegistry σ) (bounds : Bounds φ)
    (hc : HarmClass σ) : Option ℚ :=
  ((writtenLevels format registry bounds).reverse.lookup hc.id).or hc.bound

theorem levelAfter_nil (registry : HarmModelRegistry σ) (hc : HarmClass σ) :
    levelAfter format registry [] hc = hc.bound := rfl

theorem levelAfter_stop {registry : HarmModelRegistry σ} {declared : String × Option (Number φ)}
    (stops : entryLevel format registry declared = none) (rest : Bounds φ) (hc : HarmClass σ) :
    levelAfter format registry (declared :: rest) hc = hc.bound := by
  rw [levelAfter, writtenLevels, stops]
  rfl

theorem levelAfter_set {registry : HarmModelRegistry σ} {declared : String × Option (Number φ)}
    {level : ℚ} (set : entryLevel format registry declared = some level) (rest : Bounds φ)
    (hc : HarmClass σ) :
    levelAfter format registry (declared :: rest) hc =
      levelAfter format (registry.setBound declared.1 level) rest
        (if hc.id = declared.1 then { hc with bound := some level } else hc) := by
  rw [levelAfter, writtenLevels, set, levelAfter, writtenLevels_setBound]
  simp only [List.reverse_cons, List.lookup_append, List.lookup_cons, List.lookup_nil,
    Option.or_assoc]
  by_cases same : hc.id = declared.1
  · simp [same]
  · simp [same, beq_false_of_ne same]

theorem applyLevels_get? (format : FloatFormat φ) (registry : HarmModelRegistry σ)
    (bounds : Bounds φ) (id : String) :
    (Run.untilError (applyLevel format) registry bounds).1.classes.get? id =
      (registry.classes.get? id).map fun hc =>
        { hc with bound := levelAfter format registry bounds hc } := by
  induction bounds generalizing registry with
  | nil =>
      simp only [levelAfter_nil]
      exact Option.map_id'.symm
  | cons declared rest ih =>
      cases entry : entryLevel format registry declared with
      | none =>
          obtain ⟨error, refused⟩ := applyLevel_none entry
          rw [Run.untilError_cons_error _ rest refused]
          simp only [levelAfter_stop entry]
          exact Option.map_id'.symm
      | some level =>
          rw [Run.untilError_cons_ok _ rest (applyLevel_some entry), ih, get?_setBound,
            Option.map_map]
          cases found : registry.classes.get? id with
          | none => rfl
          | some hc =>
              obtain ⟨-, rfl⟩ := (Table.get?_eq_some _ _ _).mp found
              rw [Option.map_some, Option.map_some, Function.comp, levelAfter_set entry rest hc]
              split_ifs <;> rfl

theorem applyLevels_provenance (format : FloatFormat φ) (registry : HarmModelRegistry σ)
    (bounds : Bounds φ) :
    (Run.untilError (applyLevel format) registry bounds).1.provenance = registry.provenance := by
  induction bounds generalizing registry with
  | nil => rfl
  | cons declared rest ih =>
      cases entry : entryLevel format registry declared with
      | none =>
          obtain ⟨error, refused⟩ := applyLevel_none entry
          rw [Run.untilError_cons_error _ rest refused]
      | some level =>
          rw [Run.untilError_cons_ok _ rest (applyLevel_some entry), ih]
          rfl

theorem applyLevels_ok_iff (format : FloatFormat φ) (registry : HarmModelRegistry σ)
    (bounds : Bounds φ) :
    (Run.untilError (applyLevel format) registry bounds).2 = none ↔
      Loads format registry bounds := by
  induction bounds generalizing registry with
  | nil => simp [Run.untilError, Loads]
  | cons declared rest ih =>
      rw [Loads, List.forall_mem_cons]
      cases entry : entryLevel format registry declared with
      | none =>
          obtain ⟨error, refused⟩ := applyLevel_none entry
          simp [Run.untilError_cons_error _ rest refused]
      | some level =>
          rw [Run.untilError_cons_ok _ rest (applyLevel_some entry), ih, loads_setBound]
          simp [Loads]

/-- A call sets the levels it reaches, and stamps them only when it reaches them all. -/
theorem loadBounds_spec (registry : HarmModelRegistry σ) (bounds : Bounds φ)
    (provenance : Option BoundsProvenance) :
    (∀ id, (loadBounds format registry bounds provenance).1.classes.get? id =
      (registry.classes.get? id).map fun hc =>
        { hc with bound := levelAfter format registry bounds hc }) ∧
    ((loadBounds format registry bounds provenance).2 = none ↔ Loads format registry bounds) ∧
    (Loads format registry bounds →
      (loadBounds format registry bounds provenance).1.provenance =
        provenance.getD undeclaredProvenance) ∧
    (¬ Loads format registry bounds →
      (loadBounds format registry bounds provenance).1.provenance = registry.provenance) := by
  have classes := applyLevels_get? format registry bounds
  have stamp := applyLevels_provenance format registry bounds
  have loads := applyLevels_ok_iff format registry bounds
  rw [loadBounds]
  generalize Run.untilError (applyLevel format) registry bounds = result at *
  obtain ⟨loaded, error⟩ := result
  cases error with
  | none =>
      exact ⟨classes, by simpa using loads, fun _ => rfl, fun stops => absurd (loads.mp rfl) stops⟩
  | some error =>
      have stops : ¬ Loads format registry bounds := fun all => by simpa using loads.mpr all
      exact ⟨classes, by simpa using stops, fun all => absurd all stops, fun _ => stamp⟩

end Levels

/-! One guard host, and the registry its engine asks. -/

/-- `applied` is the configuration that `apply_to` last pushed without an exception. -/
structure GuardedHost (φ σ : Type) where
  host : Host φ
  registry : HarmModelRegistry σ
  applied : Option (VerifiedGuardConfig φ)

inductive GuardCall (φ σ : Type) where
  | config (call : LooseningCall φ)
  | newRegistry
  | register (hc : HarmClass σ)
  | loadBounds (bounds : Bounds φ)
  | loadBoundsFile (name : String) (data : Doc φ)
  | applyTo

/-- The configuration declares this level for this class. -/
def Declares (format : FloatFormat φ) (bounds : Bounds φ) (id : String) (level : ℚ) : Prop :=
  ∃ bound, (id, some bound) ∈ bounds ∧ floatOf format bound = .ok level

/-- The configuration verified against the key it names. -/
def Signed (crypto : Crypto) (format : FloatFormat φ) (cfg : VerifiedGuardConfig φ) : Prop :=
  ∃ config signatureHex authority,
    verifyConfig crypto format config signatureHex authority = true ∧
      cfg = verified crypto format authority config signatureHex

namespace GuardedHost

def fresh (authority : Bytes) : GuardedHost φ σ :=
  ⟨⟨freshStore authority, [], []⟩, HarmModelRegistry.empty, none⟩

section Steps

variable (crypto : Crypto) (format : FloatFormat φ) (quoted : String → String)

def step (state : GuardedHost φ σ) : GuardCall φ σ → GuardedHost φ σ
  | .config call => { state with host := state.host.loosenStep crypto format quoted call }
  | .newRegistry => { state with registry := HarmModelRegistry.empty, applied := none }
  | .register hc =>
      { state with registry := (state.registry.register hc).toOption.getD state.registry }
  | .loadBounds bounds =>
      { state with registry := (Guard.loadBounds format state.registry bounds none).1 }
  | .loadBoundsFile name data =>
      { state with registry := (Guard.loadBoundsFile format state.registry name data).1 }
  | .applyTo =>
      match Guard.applyTo format state.host.store state.registry with
      | none => state
      | some (cfg, registry, none) => { state with registry := registry, applied := some cfg }
      | some (_, registry, some _) => { state with registry := registry }

/-- The registry's stamp is of this configuration, and its levels are declared there. -/
structure Vouched (state : GuardedHost φ σ) (cfg : VerifiedGuardConfig φ) : Prop where
  signed : Signed crypto format cfg
  installed : cfg ∈ state.host.installed
  authority : state.registry.provenance.authorityPubkeyHex = cfg.authorityPubkeyHex
  version : state.registry.provenance.version = some cfg.version
  hash : state.registry.provenance.configHash = cfg.configHash
  levels : ∀ hc ∈ state.registry.classes.rows, ∀ level, hc.bound = some level →
    Declares format cfg.bounds hc.id level

/-- Under a trusted stamp, every level is one that the configuration it names declares. -/
def SignedLevels (state : GuardedHost φ σ) : Prop :=
  state.registry.provenance.trusted = true →
    ∃ cfg, state.applied = some cfg ∧ state.Vouched crypto format cfg

/-- What a call that stops halfway has set is declared by the configuration in force. -/
def KeepsLevels (state : GuardedHost φ σ) (bounds : Bounds φ) : Prop :=
  state.registry.provenance.trusted = true → ¬ Loads format state.registry bounds →
    ∀ cfg, state.applied = some cfg → ∀ hc ∈ state.registry.classes.rows, ∀ level,
      (writtenLevels format state.registry bounds).reverse.lookup hc.id = some level →
        Declares format cfg.bounds hc.id level

/-- The calls that leave no other level under a trusted stamp. -/
def Allowed (state : GuardedHost φ σ) : GuardCall φ σ → Prop
  | .config _ => True
  | .newRegistry => True
  | .register hc =>
      state.registry.provenance.trusted = true → state.registry.classes.get? hc.id = none →
        hc.frame ≠ "" → ∀ cfg, state.applied = some cfg → ∀ level, hc.bound = some level →
          Declares format cfg.bounds hc.id level
  | .loadBounds bounds => state.KeepsLevels format bounds
  | .loadBoundsFile name data =>
      ∀ bounds provenance, fileBounds format name data = some (bounds, provenance) →
        state.KeepsLevels format bounds
  | .applyTo =>
      ∀ cfg, state.host.store.cfg = some cfg → state.KeepsLevels format cfg.bounds ∧
        (Loads format state.registry cfg.bounds → ∀ hc ∈ state.registry.classes.rows,
          hc.bound ≠ none → hc.id ∈ cfg.bounds.map Prod.fst)

end Steps

/-! What one call does to the levels. -/

section Loads

variable {crypto : Crypto} {format : FloatFormat φ}

theorem mem_loadBounds (registry : HarmModelRegistry σ) (bounds : Bounds φ)
    (provenance : Option BoundsProvenance) (loaded : HarmClass σ) :
    loaded ∈ (loadBounds format registry bounds provenance).1.classes.rows ↔
      ∃ hc ∈ registry.classes.rows,
        loaded = { hc with bound := levelAfter format registry bounds hc } := by
  rw [Table.mem_rows, (loadBounds_spec registry bounds provenance).1, Option.map_eq_some_iff]
  constructor
  · rintro ⟨hc, found, rfl⟩
    exact ⟨hc, ((Table.get?_eq_some _ _ _).mp found).1, rfl⟩
  · rintro ⟨hc, listed, rfl⟩
    exact ⟨hc, (Table.mem_rows _ _).mp listed, rfl⟩

theorem loaded_row (format : FloatFormat φ) (registry : HarmModelRegistry σ) (bounds : Bounds φ)
    (provenance : Option BoundsProvenance) {hc : HarmClass σ}
    (listed : hc ∈ registry.classes.rows) :
    { hc with bound := levelAfter format registry bounds hc } ∈
      (loadBounds format registry bounds provenance).1.classes.rows :=
  (mem_loadBounds registry bounds provenance _).mpr ⟨hc, listed, rfl⟩

theorem writtenLevels_declared (registry : HarmModelRegistry σ) (bounds : Bounds φ) (id : String)
    (level : ℚ) (written : (id, level) ∈ writtenLevels format registry bounds) :
    Declares format bounds id level := by
  induction bounds with
  | nil => cases written
  | cons declared rest ih =>
      cases entry : entryLevel format registry declared with
      | none => simp [writtenLevels, entry] at written
      | some first =>
          simp only [writtenLevels, entry, List.mem_cons, Prod.mk.injEq] at written
          rcases written with ⟨rfl, rfl⟩ | later
          · rw [entryLevel] at entry
            split_ifs at entry
            obtain ⟨bound, given, read⟩ := Option.bind_eq_some_iff.mp entry
            refine ⟨bound, ?_, ?_⟩
            · rw [← given]
              exact List.mem_cons_self
            · cases result : floatOf format bound with
              | error error => simp [result, Except.toOption] at read
              | ok value => simpa [result, Except.toOption] using read
          · obtain ⟨bound, listed, read⟩ := ih later
            exact ⟨bound, List.mem_cons_of_mem _ listed, read⟩

theorem writtenLevels_all {registry : HarmModelRegistry σ} {bounds : Bounds φ}
    (loads : Loads format registry bounds) :
    (writtenLevels format registry bounds).map Prod.fst = bounds.map Prod.fst := by
  induction bounds with
  | nil => rfl
  | cons declared rest ih =>
      rw [Loads, List.forall_mem_cons] at loads
      obtain ⟨level, entry⟩ := Option.isSome_iff_exists.mp loads.1
      simp only [writtenLevels, entry, List.map_cons, ih loads.2]

theorem lastWritten_mem {registry : HarmModelRegistry σ} {bounds : Bounds φ} {id : String}
    {level : ℚ} (last : (writtenLevels format registry bounds).reverse.lookup id = some level) :
    (id, level) ∈ writtenLevels format registry bounds := by
  obtain ⟨front, back, split, -⟩ := List.lookup_eq_some_iff.mp last
  rw [← List.mem_reverse, split]
  simp

theorem lastWritten_none {registry : HarmModelRegistry σ} {bounds : Bounds φ} {id : String}
    (loads : Loads format registry bounds)
    (none : (writtenLevels format registry bounds).reverse.lookup id = none) :
    id ∉ bounds.map Prod.fst := by
  rw [← writtenLevels_all loads]
  intro listed
  obtain ⟨entry, written, rfl⟩ := List.mem_map.mp listed
  have other := List.lookup_eq_none_iff.mp none entry (List.mem_reverse.mpr written)
  simp at other

variable {state : GuardedHost φ σ}

/-- A call that stops halfway keeps the stamp, and so must keep to what it names. -/
theorem signedLevels_stopped (signed : state.SignedLevels crypto format) {bounds : Bounds φ}
    (provenance : Option BoundsProvenance) (stops : ¬ Loads format state.registry bounds) :
    SignedLevels crypto format
        { state with registry := (Guard.loadBounds format state.registry bounds provenance).1 } ↔
      state.KeepsLevels format bounds := by
  have stamp := (loadBounds_spec state.registry bounds provenance).2.2.2 stops
  rw [SignedLevels, KeepsLevels, stamp]
  by_cases trusted : state.registry.provenance.trusted = true
  · simp only [trusted, stops, not_false_eq_true, forall_const]
    obtain ⟨cfg, applied, vouched⟩ := signed trusted
    constructor
    · rintro ⟨other, same, after⟩ named given hc listed level last
      cases same.symm.trans given
      have row := loaded_row format state.registry bounds provenance listed
      exact after.levels _ row level (by simp only [levelAfter, last, Option.some_or])
    · intro keeps
      refine ⟨cfg, applied, ?_⟩
      refine ⟨vouched.signed, vouched.installed, by rw [stamp]; exact vouched.authority,
        by rw [stamp]; exact vouched.version, by rw [stamp]; exact vouched.hash, ?_⟩
      intro loaded listed level bounded
      obtain ⟨hc, stored, rfl⟩ := (mem_loadBounds _ _ _ _).mp listed
      cases last : (writtenLevels format state.registry bounds).reverse.lookup hc.id with
      | none =>
          simp only [levelAfter, last, Option.none_or] at bounded
          exact vouched.levels hc stored level bounded
      | some set =>
          simp only [levelAfter, last, Option.some_or, Option.some.injEq] at bounded
          exact keeps cfg applied hc stored level (bounded ▸ last)
  · simp [trusted]

/-- Bounds that nobody verified leave no trusted stamp behind when they all load. -/
theorem signedLevels_loadBounds (signed : state.SignedLevels crypto format) (bounds : Bounds φ)
    (provenance : Option BoundsProvenance)
    (untrusted : (provenance.getD undeclaredProvenance).trusted = false) :
    SignedLevels crypto format
        { state with registry := (Guard.loadBounds format state.registry bounds provenance).1 } ↔
      state.KeepsLevels format bounds := by
  by_cases loads : Loads format state.registry bounds
  · have stamp := (loadBounds_spec state.registry bounds provenance).2.2.1 loads
    simp [SignedLevels, KeepsLevels, stamp, untrusted, loads]
  · exact signedLevels_stopped signed provenance loads

/-- A verified configuration that loads stamps all levels; those it does not name must be
unset. -/
theorem signedLevels_applied {cfg : VerifiedGuardConfig φ} (signed : Signed crypto format cfg)
    (installed : cfg ∈ state.host.installed)
    (loads : Loads format state.registry cfg.bounds) :
    SignedLevels crypto format
        { state with
          registry := (Guard.loadBounds format state.registry cfg.bounds
            (some (signedProvenance state.host.store cfg))).1
          applied := some cfg } ↔
      ∀ hc ∈ state.registry.classes.rows, hc.bound ≠ none → hc.id ∈ cfg.bounds.map Prod.fst := by
  have stamp := (loadBounds_spec state.registry cfg.bounds
    (some (signedProvenance state.host.store cfg))).2.2.1 loads
  rw [Option.getD_some] at stamp
  constructor
  · intro after hc listed bounded
    obtain ⟨other, same, vouched⟩ := after (by rw [stamp]; rfl)
    cases same
    cases last : (writtenLevels format state.registry cfg.bounds).reverse.lookup hc.id with
    | none =>
        obtain ⟨level, given⟩ := Option.ne_none_iff_exists'.mp bounded
        obtain ⟨bound, declared, -⟩ := vouched.levels _
          (loaded_row format state.registry cfg.bounds _ listed) level
          (by simp only [levelAfter, last, Option.none_or, given])
        exact List.mem_map_of_mem declared
    | some level =>
        obtain ⟨bound, declared, -⟩ := writtenLevels_declared _ _ _ _ (lastWritten_mem last)
        exact List.mem_map_of_mem declared
  · intro covers trusted
    refine ⟨cfg, rfl, signed, installed, by rw [stamp]; rfl, by rw [stamp]; rfl,
      by rw [stamp]; rfl, ?_⟩
    intro loaded listed level bounded
    obtain ⟨hc, stored, rfl⟩ := (mem_loadBounds _ _ _ _).mp listed
    cases last : (writtenLevels format state.registry cfg.bounds).reverse.lookup hc.id with
    | none =>
        simp only [levelAfter, last, Option.none_or] at bounded
        exact absurd (covers hc stored (by simp [bounded])) (lastWritten_none loads last)
    | some set =>
        simp only [levelAfter, last, Option.some_or, Option.some.injEq] at bounded
        exact bounded ▸ writtenLevels_declared _ _ _ _ (lastWritten_mem last)

end Loads

/-! What the host installs is verified. -/

section Hosts

variable {crypto : Crypto} {format : FloatFormat φ} {quoted : String → String}

theorem vetInstall_signed {store : GuardConfigStore φ} {history : List (HistoryRecord φ)}
    {config : GuardConfig φ} {signatureHex : String} {allowLoosening : Bool}
    {cfg : VerifiedGuardConfig φ}
    (vetted : vetInstall crypto format store history config signatureHex allowLoosening = .ok cfg) :
    Signed crypto format cfg := by
  have same := (Host.vetInstall_ok vetted).1
  rw [vetInstall] at vetted
  split at vetted
  · cases vetted
  · rename_i verifies
    exact ⟨config, signatureHex, store.authority, by simpa using verifies, same⟩

/-- Every configuration that was installed had verified, and the live one is among them. -/
structure Recorded (crypto : Crypto) (format : FloatFormat φ) (host : Host φ) : Prop where
  signed : ∀ cfg ∈ host.installed, Signed crypto format cfg
  live : ∀ cfg, host.store.cfg = some cfg → cfg ∈ host.installed

theorem Recorded.append {host : Host φ} (recorded : Recorded crypto format host)
    {cfg : VerifiedGuardConfig φ} (signed : Signed crypto format cfg)
    (history : List (HistoryRecord φ)) (alarms : List String) :
    Recorded crypto format
      ⟨{ host.store with cfg := some cfg, alarms := alarms }, history,
        host.installed ++ [cfg]⟩ := by
  constructor
  · intro other listed
    rcases List.mem_append.mp listed with before | single
    · exact recorded.signed other before
    · rw [List.mem_singleton.mp single]
      exact signed
  · intro live stored
    cases stored
    simp

theorem Recorded.loosenStep {host : Host φ} (recorded : Recorded crypto format host)
    (call : LooseningCall φ) :
    Recorded crypto format (host.loosenStep crypto format quoted call) ∧
      host.installed ⊆ (host.loosenStep crypto format quoted call).installed := by
  have kept : ∀ {config signatureHex now result},
      Guard.install crypto format host.store host.history config signatureHex false now =
        .ok result → Recorded crypto format (host.keep (.ok result)) ∧
          host.installed ⊆ (host.keep (.ok result)).installed := by
    intro config signatureHex now result installed
    obtain ⟨cfg, vetted, rfl⟩ := Host.install_ok installed
    exact ⟨recorded.append (vetInstall_signed vetted) _ _, List.subset_append_left _ _⟩
  cases call with
  | call call =>
      cases call with
      | load config signatureHex now =>
          rw [Host.loosenStep, Host.step, load]
          cases result : Guard.install crypto format host.store host.history config signatureHex
              false now with
          | error error => exact ⟨recorded, List.Subset.refl _⟩
          | ok next => exact kept result
      | attemptUpdate config signatureHex requestedBy now =>
          rw [Host.loosenStep, Host.step, attemptUpdate]
          cases result : Guard.install crypto format host.store host.history config signatureHex
              false now with
          | error error => exact ⟨recorded, List.Subset.refl _⟩
          | ok next => exact kept result
      | rotateAuthority record signatureHex =>
          refine ⟨⟨recorded.signed, ?_⟩, List.Subset.refl _⟩
          intro cfg stored
          exact recorded.live cfg
            ((Host.rotateAuthority_cfg host.store record signatureHex).symm.trans stored)
      | restart authority =>
          refine ⟨⟨recorded.signed, ?_⟩, List.Subset.refl _⟩
          intro cfg stored
          cases stored
  | installLoosening config signatureHex record recordSignatureHex requestedBy now =>
      rw [Host.loosenStep]
      cases result : Guard.installLoosening crypto format quoted host.store host.history config
          signatureHex record recordSignatureHex requestedBy now with
      | error error => exact ⟨recorded, List.Subset.refl _⟩
      | ok next =>
          obtain ⟨installed, changes, cfg, -, -, -, -, vetted, rfl⟩ :=
            Host.installLoosening_ok result
          exact ⟨recorded.append (vetInstall_signed vetted) _ _, List.subset_append_left _ _⟩

end Hosts

/-! One call, and runs. -/

section Runs

variable {crypto : Crypto} {format : FloatFormat φ} (quoted : String → String)

theorem recorded_step {state : GuardedHost φ σ} (recorded : Recorded crypto format state.host)
    (call : GuardCall φ σ) :
    Recorded crypto format (state.step crypto format quoted call).host := by
  cases call with
  | config call => exact (recorded.loosenStep call).1
  | newRegistry => exact recorded
  | register hc => exact recorded
  | loadBounds bounds => exact recorded
  | loadBoundsFile name data => exact recorded
  | applyTo =>
      rw [step]
      split
      · exact recorded
      · exact recorded
      · exact recorded

theorem signedLevels_config {state : GuardedHost φ σ} (recorded : Recorded crypto format state.host)
    (signed : state.SignedLevels crypto format) (call : LooseningCall φ) :
    (state.step crypto format quoted (.config call)).SignedLevels crypto format := by
  intro trusted
  obtain ⟨cfg, applied, vouched⟩ := signed trusted
  exact ⟨cfg, applied, vouched.signed, (recorded.loosenStep call).2 vouched.installed,
    vouched.authority, vouched.version, vouched.hash, vouched.levels⟩

theorem signedLevels_register {state : GuardedHost φ σ} (signed : state.SignedLevels crypto format)
    (hc : HarmClass σ) :
    (state.step crypto format quoted (.register hc)).SignedLevels crypto format ↔
      state.Allowed format (.register hc) := by
  rw [step, Allowed, HarmModelRegistry.register]
  split_ifs with known unframed
  · simp only [Except.toOption, Option.getD_none]
    exact ⟨fun _ _ _ framed => absurd unframed framed, fun _ => signed⟩
  · simp only [Except.toOption, Option.getD_some]
    constructor
    · intro after trusted _ _ cfg applied level bounded
      obtain ⟨other, same, vouched⟩ := after trusted
      cases same.symm.trans applied
      exact vouched.levels hc (by simp [Table.append]) level bounded
    · intro declares trusted
      obtain ⟨cfg, applied, vouched⟩ := signed trusted
      refine ⟨cfg, applied, vouched.signed, vouched.installed, vouched.authority, vouched.version,
        vouched.hash, ?_⟩
      intro other listed level bounded
      rcases List.mem_append.mp listed with before | single
      · exact vouched.levels other before level bounded
      · cases List.mem_singleton.mp single
        exact declares trusted known unframed cfg applied level bounded
  · simp only [Except.toOption, Option.getD_none]
    exact ⟨fun _ _ fresh => absurd fresh known, fun _ => signed⟩

theorem fileBounds_untrusted {name : String} {data : Doc φ} {bounds : Bounds φ}
    {provenance : BoundsProvenance}
    (read : fileBounds format name data = some (bounds, provenance)) :
    provenance.trusted = false := by
  cases data with
  | obj entries =>
      simp only [fileBounds] at read
      split at read
      · split at read
        · split at read
          · cases read
            rfl
          · cases read
        · cases read
      · split at read
        · cases read
          rfl
        · cases read
  | null => cases read
  | bool value => cases read
  | int value => cases read
  | float value => cases read
  | str text => cases read
  | arr items => cases read

theorem signedLevels_applyTo {state : GuardedHost φ σ}
    (recorded : Recorded crypto format state.host) (signed : state.SignedLevels crypto format) :
    (state.step crypto format quoted .applyTo).SignedLevels crypto format ↔
      state.Allowed format .applyTo := by
  rw [step, Allowed, Guard.applyTo]
  cases stored : state.host.store.cfg with
  | none => simpa using signed
  | some cfg =>
      rw [Option.map_some]
      simp only [Option.some.injEq, forall_eq']
      have completes : (Guard.loadBounds format state.registry cfg.bounds
          (some (signedProvenance state.host.store cfg))).2 = none ↔
          Loads format state.registry cfg.bounds := (loadBounds_spec _ _ _).2.1
      have installed := recorded.live cfg stored
      by_cases loads : Loads format state.registry cfg.bounds
      · have after := signedLevels_applied (recorded.signed cfg installed) installed loads
        have none := completes.mpr loads
        generalize Guard.loadBounds format state.registry cfg.bounds
          (some (signedProvenance state.host.store cfg)) = result at none after
        obtain ⟨registry, error⟩ := result
        cases none
        rw [after]
        simp [KeepsLevels, loads]
      · have after := signedLevels_stopped signed
          (some (signedProvenance state.host.store cfg)) loads
        have raises := mt completes.mp loads
        generalize Guard.loadBounds format state.registry cfg.bounds
          (some (signedProvenance state.host.store cfg)) = result at raises after
        obtain ⟨registry, error⟩ := result
        cases error with
        | none => exact absurd rfl raises
        | some error =>
            rw [after]
            simp [loads]

/-- Under a host that keeps its records, one call keeps the levels signed just where it is
allowed to. -/
theorem signedLevels_step {state : GuardedHost φ σ} (recorded : Recorded crypto format state.host)
    (signed : state.SignedLevels crypto format) (call : GuardCall φ σ) :
    (state.step crypto format quoted call).SignedLevels crypto format ↔
      state.Allowed format call := by
  cases call with
  | config call =>
      exact ⟨fun _ => trivial, fun _ => signedLevels_config quoted recorded signed call⟩
  | newRegistry => exact ⟨fun _ => trivial, fun _ trusted => nomatch trusted⟩
  | register hc => exact signedLevels_register quoted signed hc
  | loadBounds bounds => exact signedLevels_loadBounds signed bounds none rfl
  | loadBoundsFile name data =>
      rw [step, Allowed, Guard.loadBoundsFile]
      cases read : fileBounds format name data with
      | none => simpa using signed
      | some loaded =>
          obtain ⟨bounds, provenance⟩ := loaded
          have load := signedLevels_loadBounds signed bounds (some provenance)
            (fileBounds_untrusted read)
          simpa using load
  | applyTo => exact signedLevels_applyTo quoted recorded signed

/-- A host that has done nothing yet has nothing to record and no stamp. -/
theorem fresh_sound (pinned : Bytes) :
    Recorded crypto format (fresh pinned : GuardedHost φ σ).host ∧
      (fresh pinned : GuardedHost φ σ).SignedLevels crypto format := by
  refine ⟨⟨?_, ?_⟩, ?_⟩
  · intro cfg listed
    cases listed
  · intro cfg stored
    cases stored
  · intro trusted
    cases trusted

/-- A run of allowed calls keeps the levels signed. -/
theorem signedLevels_run (pinned : Bytes) (calls : List (GuardCall φ σ))
    (allowed : Run.Admissible (step crypto format quoted) (Allowed format) (fresh pinned) calls) :
    Recorded crypto format (Run.run (step crypto format quoted) (fresh pinned) calls).host ∧
      (Run.run (step crypto format quoted) (fresh pinned) calls).SignedLevels crypto format := by
  refine Run.invariant_run (step crypto format quoted) (Allowed format)
    (fun state => Recorded crypto format state.host ∧ state.SignedLevels crypto format) ?_ _ calls
    (fresh_sound pinned) allowed
  intro state call holds call_allowed
  exact ⟨recorded_step quoted holds.1 call,
    (signedLevels_step quoted holds.1 holds.2 call).mpr call_allowed⟩

end Runs

end GuardedHost

/-- In a run of one host, a trusted stamp names at every moment a configuration that was
installed and had verified, whose own bounds are the levels of all the classes, exactly when
every call of the run is allowed. Those that are not: a class registered with a level of its
own under the stamp, a load under it that stops halfway at a level the configuration does not
declare, and a verified load beside a level that it does not name. -/
theorem signed_levels_iff (crypto : Crypto) (format : FloatFormat φ) (quoted : String → String)
    (authority : Bytes) (calls : List (GuardCall φ σ)) :
    (∀ front back, calls = front ++ back →
      (Run.run (GuardedHost.step crypto format quoted) (GuardedHost.fresh authority)
        front).SignedLevels crypto format) ↔
      Run.Admissible (GuardedHost.step crypto format quoted) (GuardedHost.Allowed format)
        (GuardedHost.fresh authority) calls := by
  have recorded := fun front => Run.kept_run (GuardedHost.step crypto format quoted)
    (fun state => GuardedHost.Recorded crypto format state.host)
    (fun state call holds => GuardedHost.recorded_step quoted holds call)
    (GuardedHost.fresh authority : GuardedHost φ σ) front (GuardedHost.fresh_sound authority).1
  rw [← Run.invariant_iff_admissible (GuardedHost.step crypto format quoted)
    (GuardedHost.Allowed format)
    (fun state => GuardedHost.Recorded crypto format state.host ∧
      state.SignedLevels crypto format) _ _ calls (GuardedHost.fresh_sound authority)]
  · constructor
    · intro along front back split
      exact ⟨recorded front, along front back split⟩
    · intro along front back split
      exact (along front back split).2
  · intro state call holds
    rw [← GuardedHost.signedLevels_step quoted holds.1 holds.2 call]
    exact and_iff_right (GuardedHost.recorded_step quoted holds.1 call)

/-! A load that stops at its second entry under a trusted stamp. -/

namespace Sample

def harmClass (id : String) (bound : Option ℚ) : HarmClass Int where
  id := id
  quantity := fun before after => after - before
  bound := bound
  frame := "the local store"
  frameMutable := false
  driftClass := some .silence

def stamped : HarmModelRegistry Int :=
  ⟨⟨[harmClass "H4" (some 0)], by decide⟩, { source := .signed, detail := "verified" }⟩

def stopped : HarmModelRegistry Int × Option HarmError :=
  loadBounds PyNumber.wholeFormat stamped [("H4", some (.int 7)), ("H9", some (.int 1))] none

example : stopped.1.provenance.trusted = true ∧
    stopped.1.classes.rows.map (fun hc => hc.bound) = [some 7] := by
  decide +kernel

end Sample

end Guard

end Gyza

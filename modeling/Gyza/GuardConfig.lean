import Gyza.Crypto
import Gyza.Lib.HashChain
import Gyza.Lib.PyNumber
import Gyza.Lib.Run

/-! The guard configuration store (`gyza/containment/guardconfig.py`): signed
configurations, their install history, and the succession of authority keys.

A history that is not there yet is the empty one. Its lines are read back as the
records they were written from. -/

namespace Gyza

open CanonJson (Doc)
open Hex (Bytes utf8)
open PyNumber (FloatFormat Number)

namespace Guard

/-- `dict[str, float | None]`. -/
abbrev Bounds (φ : Type) := List (String × Option (Number φ))

inductive Direction where
  | unchanged
  | tightened
  | loosened
  deriving DecidableEq

structure BoundChange where
  boundId : String
  old : Option ℚ
  new : Option ℚ
  direction : Direction
  deriving DecidableEq

/-- `GuardConfigError`, and the two errors of conversions that are not one. -/
inductive GuardError where
  | badSignature
  | rollback (version floor : Int)
  | loosens (changes : List BoundChange)
  | notMonotone (version installed : Int)
  | chainBreaks (line : Nat)
  | refused (requestedBy : String) (cause : GuardError)
  | successionSignature
  | otherPredecessor (named authority : String)
  | ownSuccessor
  | overflowError
  | valueError

/-- A configuration document: the entries the store reads, and the others it only signs. -/
structure GuardConfig (φ : Type) where
  version : Option Int
  bounds : Option (Bounds φ)
  policy : Option (List (String × Doc φ))
  tierAssignments : Option (List (String × Doc φ))
  other : List (String × Doc φ)

structure VerifiedGuardConfig (φ : Type) where
  version : Int
  bounds : Bounds φ
  policy : List (String × Doc φ)
  tierAssignments : List (String × Doc φ)
  signature : String
  authorityPubkeyHex : String
  configHash : String

/-- One line of the history; a line from before bounds were recorded has none. -/
structure HistoryRecord (φ : Type) where
  version : Int
  configHash : String
  atNs : Int
  prev : String
  bounds : Option (Bounds φ)

structure KeySuccession where
  oldPubkeyHex : String
  newPubkeyHex : String
  atNs : Int
  reason : String
  deriving DecidableEq

structure GuardConfigStore (φ : Type) where
  authority : Bytes
  genesisAuthority : Bytes
  cfg : Option (VerifiedGuardConfig φ) := none
  successions : List (KeySuccession × String) := []
  alarms : List String := []

variable {φ : Type}

/-! Documents and their bytes. -/

def boundsDoc (bounds : Bounds φ) : Doc φ :=
  .obj (bounds.map (fun bound => (bound.1, bound.2.elim .null Number.toDoc)))

def GuardConfig.toDoc (config : GuardConfig φ) : Doc φ :=
  .obj ((config.version.map (fun version => ("version", Doc.int version))).toList ++
    (config.bounds.map (fun bounds => ("bounds", boundsDoc bounds))).toList ++
    (config.policy.map (fun policy => ("policy", Doc.obj policy))).toList ++
    (config.tierAssignments.map (fun tiers => ("tier_assignments", Doc.obj tiers))).toList ++
    config.other)

/-- `_link_payload`. -/
def linkPayload (rec : HistoryRecord φ) : Doc φ :=
  .obj ([("version", .int rec.version), ("config_hash", .str rec.configHash),
    ("at_ns", .int rec.atNs), ("prev", .str rec.prev)] ++
    (rec.bounds.map (fun bounds => ("bounds", boundsDoc bounds))).toList)

def KeySuccession.toDoc (record : KeySuccession) : Doc φ :=
  .obj [("old_pubkey", .str record.oldPubkeyHex), ("new_pubkey", .str record.newPubkeyHex),
    ("at_ns", .int record.atNs), ("reason", .str record.reason)]

section Store

variable (crypto : Crypto) (format : FloatFormat φ)

def canonicalBytes (document : Doc φ) : Bytes := utf8 (Doc.dumps format.repr document.normal)

def configHash (config : GuardConfig φ) : String :=
  crypto.hexdigest (canonicalBytes format config.toDoc)

/-- Where `from_public_bytes`, `fromhex` or the check itself fails, the answer is no. -/
def verifyBytes (message : Bytes) (signatureHex : String) (pubkey : Bytes) : Bool :=
  match Hex.fromhex signatureHex with
  | none => false
  | some sig => pubkey.length = 32 && crypto.ed25519Verify pubkey message sig

/-- `sign_config` with the authority's key. -/
def signConfig (key : LocalCompositor crypto) (config : GuardConfig φ) : String :=
  key.sign (crypto.blake3 (canonicalBytes format config.toDoc))

def signSuccession (key : LocalCompositor crypto) (record : KeySuccession) : String :=
  key.sign (canonicalBytes format record.toDoc)

def verifyConfig (config : GuardConfig φ) (signatureHex : String) (authority : Bytes) : Bool :=
  verifyBytes crypto (crypto.blake3 (canonicalBytes format config.toDoc)) signatureHex authority

def verifySuccession (record : KeySuccession) (signatureHex : String) (outgoing : Bytes) : Bool :=
  verifyBytes crypto (canonicalBytes format record.toDoc) signatureHex outgoing

/-! Permissiveness. -/

/-- `float(bound)`, as it is compared. -/
def floatOf (bound : Number φ) : Except GuardError ℚ :=
  (bound.toFloat format).elim (.error .overflowError) (fun level => .ok (format.value level))

/-- `bounds.get(key)`. -/
def boundOf (bounds : Bounds φ) (key : String) : Option (Number φ) := (bounds.lookup key).join

def direction (old new : ℚ) : Direction :=
  if old < new then .loosened else if new < old then .tightened else .unchanged

/-- The change of one bound; a missing bound admits nothing, so adding it loosens. -/
def boundChange (key : String) (old new : Option (Number φ)) :
    Except GuardError (List BoundChange) :=
  match old, new with
  | none, none => .ok []
  | none, some n => do
      let level ← floatOf format n
      pure [⟨key, none, some level, .loosened⟩]
  | some o, none => do
      let level ← floatOf format o
      pure [⟨key, some level, none, .tightened⟩]
  | some o, some n => do
      let next ← floatOf format n
      let earlier ← floatOf format o
      pure [⟨key, some earlier, some next, direction earlier next⟩]

/-- `sorted(set(old) | set(new))`. -/
def boundIds (old new : Bounds φ) : List String :=
  ((old ++ new).map Prod.fst).dedup.insertionSort (· ≤ ·)

def changesOf (old new : Bounds φ) : List String → Except GuardError (List BoundChange)
  | [] => .ok []
  | key :: rest => do
      let change ← boundChange format key (boundOf old key) (boundOf new key)
      let others ← changesOf old new rest
      pure (change ++ others)

def diffBounds (old new : Bounds φ) : Except GuardError (List BoundChange) :=
  changesOf format old new (boundIds old new)

/-- Refuses when a bound loosens. -/
def refuseLoosening (old new : Bounds φ) : Except GuardError Unit := do
  let changes ← diffBounds format old new
  let loosened := changes.filter (fun change => change.direction = .loosened)
  if loosened = [] then pure () else .error (.loosens loosened)

/-! The install history. -/

def link (rec : HistoryRecord φ) : String := crypto.hexdigest (canonicalBytes format (linkPayload rec))

/-- The loop of `_version_floor` from a line on: the highest version, and the
bounds of the last line. -/
def floorFrom (line : Nat) (prev : String) (floor : Int) (recorded : Option (Bounds φ)) :
    List (HistoryRecord φ) → Except GuardError (Int × Option (Bounds φ))
  | [] => .ok (floor, recorded)
  | rec :: rest =>
      if rec.prev ≠ prev then .error (.chainBreaks line)
      else floorFrom (line + 1) (link crypto format rec) (max floor rec.version) rec.bounds rest

def versionFloor (history : List (HistoryRecord φ)) : Except GuardError (Int × Option (Bounds φ)) :=
  floorFrom crypto format 1 "" 0 none history

/-- The link that `_record_install` computes from the lines it reads. -/
def lastLink (history : List (HistoryRecord φ)) : String := HashChain.head (link crypto format) "" history

/-- The line `_record_install` writes after it read the link `prev`. -/
def installRecord (cfg : VerifiedGuardConfig φ) (prev : String) (now : Int) : HistoryRecord φ where
  version := cfg.version
  configHash := cfg.configHash
  atNs := now
  prev := prev
  bounds := some cfg.bounds

/-! `_install`. -/

def verified (authority : Bytes) (config : GuardConfig φ) (signatureHex : String) :
    VerifiedGuardConfig φ where
  version := config.version.getD 0
  bounds := config.bounds.getD []
  policy := config.policy.getD []
  tierAssignments := config.tierAssignments.getD []
  signature := signatureHex
  authorityPubkeyHex := Hex.encode authority
  configHash := configHash crypto format config

/-- A cold store compares with the floor and the bounds it read from the history. -/
def coldChecks (allowLoosening : Bool) (floor : Int) (recorded : Option (Bounds φ))
    (cfg : VerifiedGuardConfig φ) : Except GuardError Unit :=
  if cfg.version < floor then .error (.rollback cfg.version floor)
  else if allowLoosening then .ok ()
  else
    match recorded with
    | some old => refuseLoosening format old cfg.bounds
    | none => .ok ()

/-- A warm store compares with the configuration it holds. -/
def warmChecks (allowLoosening : Bool) (installed cfg : VerifiedGuardConfig φ) :
    Except GuardError Unit :=
  if cfg.version ≤ installed.version then .error (.notMonotone cfg.version installed.version)
  else if allowLoosening then .ok ()
  else refuseLoosening format installed.bounds cfg.bounds

/-- All of `_install` before the configuration is set, on one reading of the history. -/
def vetInstall (store : GuardConfigStore φ) (history : List (HistoryRecord φ)) (config : GuardConfig φ)
    (signatureHex : String) (allowLoosening : Bool) : Except GuardError (VerifiedGuardConfig φ) := do
  if verifyConfig crypto format config signatureHex store.authority = false then
    .error .badSignature
  else do
    let (floor, recorded) ← versionFloor crypto format history
    let cfg := verified crypto format store.authority config signatureHex
    match store.cfg with
    | none => coldChecks format allowLoosening floor recorded cfg
    | some installed => warmChecks format allowLoosening installed cfg
    pure cfg

/-- `_install` with the history to itself. -/
def install (store : GuardConfigStore φ) (history : List (HistoryRecord φ)) (config : GuardConfig φ)
    (signatureHex : String) (allowLoosening : Bool) (now : Int) :
    Except GuardError (GuardConfigStore φ × List (HistoryRecord φ) × VerifiedGuardConfig φ) := do
  let cfg ← vetInstall crypto format store history config signatureHex allowLoosening
  pure ({ store with cfg := some cfg },
    history ++ [installRecord cfg (lastLink crypto format history) now], cfg)

def load (store : GuardConfigStore φ) (history : List (HistoryRecord φ)) (config : GuardConfig φ)
    (signatureHex : String) (now : Int) :
    Except GuardError (GuardConfigStore φ × List (HistoryRecord φ) × VerifiedGuardConfig φ) :=
  install crypto format store history config signatureHex false now

def isGuardConfigError : GuardError → Bool
  | .overflowError => false
  | .valueError => false
  | _ => true

def attemptUpdate (store : GuardConfigStore φ) (history : List (HistoryRecord φ))
    (config : GuardConfig φ) (signatureHex requestedBy : String) (now : Int) :
    Except GuardError (GuardConfigStore φ × List (HistoryRecord φ) × VerifiedGuardConfig φ) :=
  (install crypto format store history config signatureHex false now).mapError (fun cause =>
    if isGuardConfigError cause then .refused requestedBy cause else cause)

/-- The store after the call, and the exception it ended with. The chain is
extended before the successor is decoded. -/
def rotateAuthority (store : GuardConfigStore φ) (record : KeySuccession) (signatureHex : String) :
    GuardConfigStore φ × Option GuardError :=
  if verifySuccession crypto format record signatureHex store.authority = false then
    (store, some .successionSignature)
  else if record.oldPubkeyHex ≠ Hex.encode store.authority then
    (store, some (.otherPredecessor record.oldPubkeyHex (Hex.encode store.authority)))
  else if record.newPubkeyHex = Hex.encode store.authority then (store, some .ownSuccessor)
  else
    match Hex.fromhex record.newPubkeyHex with
    | none => ({ store with successions := store.successions ++ [(record, signatureHex)] },
        some .valueError)
    | some successor =>
        ({ store with
            successions := store.successions ++ [(record, signatureHex)]
            authority := successor
            alarms := store.alarms ++ ["AUTHORITY ROTATED to " ++
              String.ofList (record.newPubkeyHex.toList.take 16) ++ "... (" ++ record.reason ++
              ")"] }, none)

end Store

section Signatures

variable {crypto : Crypto}

theorem verifyBytes_sign (key : LocalCompositor crypto) (message : Bytes) :
    verifyBytes crypto message (key.sign message) key.publicBytes = true := by
  have sig : Hex.fromhex (key.sign message) = some (key.signBytes message) := Hex.fromhex_encode _
  simp [verifyBytes, sig, key.publicBytes_length, key.signBytes_verifies]

theorem verifyConfig_sign (format : FloatFormat φ) (key : LocalCompositor crypto)
    (config : GuardConfig φ) :
    verifyConfig crypto format config (signConfig crypto format key config) key.publicBytes = true :=
  verifyBytes_sign key _

theorem verifySuccession_sign (format : FloatFormat φ) (key : LocalCompositor crypto)
    (record : KeySuccession) :
    verifySuccession crypto format record (signSuccession crypto format key record)
      key.publicBytes = true :=
  verifyBytes_sign key _

end Signatures

/-- A store as its constructor leaves it. -/
def freshStore (authority : Bytes) : GuardConfigStore φ := ⟨authority, authority, none, [], []⟩

end Guard

namespace Sample

def guardConfig (version : Int) (bounds : Guard.Bounds Int) : Guard.GuardConfig Int :=
  ⟨some version, some bounds, none, none, []⟩

end Sample

end Gyza

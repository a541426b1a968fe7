import Gyza.Crypto
import Gyza.Lib.CanonJson
import Gyza.Lib.Checks
import Gyza.Staging

/-! The specification authority (`gyza/verification/authority.py`).

`register` screens a record, sets it and then appends a log entry. Making the entry reads
the file that the record cites, and that can fail after the record is set. -/

namespace Gyza.Verification

open CanonJson (Json)
open Checks (demand)
open Hex (Bytes utf8)
open Staging (InvariantClass)

/-- What a call of a verifier comes to. -/
inductive Outcome where
  | raises (reason : String)
  | bool (value : Bool)
  | failure (reason : String)
  | other (typeName : String)
  deriving DecidableEq

structure Parameter where
  name : String
  varKeyword : Bool := false
  hasDefault : Bool := false

/-- A callable; its signature may be one that `inspect.signature` does not find. -/
structure PyFunction (Value : Type) where
  signature : Option (List Parameter)
  call : List Value → Dict String Value → Outcome

/-- What `str.strip` takes away. -/
def pySpace (c : Char) : Bool :=
  let n := c.toNat
  (0x09 ≤ n ∧ n ≤ 0x0d) ∨ (0x1c ≤ n ∧ n ≤ 0x20) ∨ n = 0x85 ∨ n = 0xa0 ∨ n = 0x1680 ∨
    (0x2000 ≤ n ∧ n ≤ 0x200a) ∨ n = 0x2028 ∨ n = 0x2029 ∨ n = 0x202f ∨ n = 0x205f ∨ n = 0x3000

def blank (text : String) : Bool := text.toList.all pySpace

def className : InvariantClass → String
  | .conservation => "CONSERVATION"
  | .monotoneNonCumulative => "MONOTONE_NON_CUMULATIVE"
  | .cumulative => "CUMULATIVE"

/-- `VALID_CARRIERS`. -/
inductive Carrier where
  | proof
  | spec
  | test
  deriving DecidableEq

def Carrier.text : Carrier → String
  | .proof => "PROOF"
  | .spec => "SPEC"
  | .test => "TEST"

structure NotApplicable where
  reason : String
  reason_stated : blank reason = false

structure FrameRef where
  identifier : String
  digest : String
  identifier_stated : blank identifier = false
  digest_stated : blank digest = false

inductive AttestationMethod where
  | selfAsserted
  | keyBound
  deriving DecidableEq

structure Attestation where
  author : String
  method : AttestationMethod
  basis : String
  pubkeyHex : String := ""
  signatureHex : String := ""
  author_stated : blank author = false
  basis_stated : blank basis = false
  bound : method = .keyBound → pubkeyHex ≠ "" ∧ signatureHex ≠ ""

/-- A frozen set of texts is kept as its members in order. -/
structure FrozenSet where
  members : List String
  sorted : members.Pairwise (· < ·)
  deriving DecidableEq

structure SupersedeAck where
  dropped : FrozenSet
  acceptedBy : String
  reason : String
  accepted : acceptedBy ≠ ""
  reasoned : reason ≠ ""

structure SpecRecord (Value : Type) where
  claimType : String
  successCondition : String
  fn : PyFunction Value
  carrier : Carrier
  invariantClass : InvariantClass ⊕ NotApplicable
  attestation : Attestation
  frame : FrameRef ⊕ NotApplicable
  obligations : FrozenSet
  version : Int
  witness : String
  claimType_stated : blank claimType = false
  successCondition_stated : blank successCondition = false
  witness_stated : blank witness = false
  obligations_nonempty : obligations.members ≠ []
  version_positive : 1 ≤ version

variable {Value : Type}

def canonicalBytes (rec : SpecRecord Value) : Bytes :=
  let invariantClass := match rec.invariantClass with
    | .inl tag => className tag
    | .inr absent => "N/A:" ++ absent.reason
  let frame := match rec.frame with
    | .inl pinned => Json.obj (CanonJson.sortKeys
        [("identifier", .str pinned.identifier), ("digest", .str pinned.digest)])
    | .inr absent => .str ("N/A:" ++ absent.reason)
  utf8 (CanonJson.dumps (.obj (CanonJson.sortKeys
    [("claim_type", .str rec.claimType), ("success_condition", .str rec.successCondition),
      ("carrier", .str rec.carrier.text), ("invariant_class", .str invariantClass),
      ("frame", frame), ("obligations", .arr (rec.obligations.members.map .str)),
      ("version", .int rec.version), ("witness", .str rec.witness),
      ("author", .str rec.attestation.author),
      ("attestation_basis", .str rec.attestation.basis)])))

def digest (crypto : Crypto) (rec : SpecRecord Value) : String :=
  crypto.hexdigest (canonicalBytes rec)

def verifyAttestation (crypto : Crypto) (rec : SpecRecord Value) : Bool :=
  match Hex.fromhex rec.attestation.pubkeyHex, Hex.fromhex rec.attestation.signatureHex with
  | some pubkey, some signature =>
      pubkey.length = 32 && crypto.ed25519Verify pubkey (canonicalBytes rec) signature
  | _, _ => false

/-! The screens: what a signature declares against the record, if anything. -/

def samplingParams : List String := ["cases", "samples", "examples", "test_cases"]

def movableReferenceParams : List String :=
  ["candidates", "corpus", "entries", "envelopes", "chain", "claims"]

def parameters (fn : PyFunction Value) : List Parameter := fn.signature.getD []

def declared (fn : PyFunction Value) (names : List String) : List String :=
  (((parameters fn).map Parameter.name).filter (· ∈ names)).insertionSort (· ≤ ·)

def checkCarrierClaim (fn : PyFunction Value) (carrier : Carrier) : List String :=
  if carrier = .proof then declared fn samplingParams else []

/-- The variadic and the defaulted parameters that leave the proposition to the caller. -/
def checkClaimDeterminacy (fn : PyFunction Value) (carrier : Carrier) : List String × List String :=
  if carrier = .test then ([], [])
  else
    (((parameters fn).filter Parameter.varKeyword).map Parameter.name,
      ((parameters fn).filter Parameter.hasDefault).map Parameter.name)

def checkFrameRequirement (fn : PyFunction Value) (frame : FrameRef ⊕ NotApplicable) : List String :=
  match frame with
  | .inl _ => []
  | .inr _ => declared fn movableReferenceParams

/-! The witness. -/

/-- `str.isdigit` takes digits that `int` does not. -/
structure PyText where
  isdigit : String → Bool
  int : String → Option Nat

/-- What the file system answers about the path of a witness. -/
inductive FileAnswer where
  | unstatable
  | missing
  | unreadable
  | lines (count : Nat)

inductive WitnessDetail where
  | nonFile (witness : String)
  | noSuchFile (path : String)
  | tooFewLines (witness : String) (count : Nat)
  | resolves (path : String)
  deriving DecidableEq

inductive WitnessError where
  | osError
  | valueError
  deriving DecidableEq

/-- `witness.rpartition(":")`, without the separator. -/
def rpartition (witness : String) : String × String :=
  let backwards := witness.toList.reverse
  (String.ofList ((backwards.dropWhile (· ≠ ':')).drop 1).reverse,
    String.ofList (backwards.takeWhile (· ≠ ':')).reverse)

def checkWitnessResolves (python : PyText) (file : FileAnswer) (witness : String) :
    Except WitnessError WitnessDetail :=
  if ':' ∉ witness.toList then .ok (.nonFile witness)
  else
    let (path, line) := rpartition witness
    match file with
    | .unstatable => .error .osError
    | .missing => .ok (.noSuchFile path)
    | .unreadable => if python.isdigit line then .error .osError else .ok (.resolves path)
    | .lines count =>
        if python.isdigit line then
          match python.int line with
          | none => .error .valueError
          | some number =>
              if count < number then .ok (.tooFewLines witness count) else .ok (.resolves path)
        else .ok (.resolves path)

/-- Obligations of `old` that `new` lacks. -/
def weakening (old new : SpecRecord Value) : List String :=
  old.obligations.members.filter (· ∉ new.obligations.members)

/-! Registration. -/

structure LogEntry where
  claimType : String
  version : Int
  digest : String
  carrier : Carrier
  author : String
  attestationMethod : AttestationMethod
  attestationBasis : String
  witnessScreen : WitnessDetail
  superseded : List String

structure SpecAuthority (Value : Type) where
  records : Dict String (SpecRecord Value) := Dict.empty
  log : List LogEntry := []

inductive SpecError where
  | notARecord
  | attestationRefused (claimType pubkeyHex : String)
  | carrierRefused (claimType : String) (sampling : List String)
  | underdeterminedClaim (claimType : String) (variadic defaulted : List String)
  | frameRefused (claimType : String) (movable : List String)
  | unacknowledged (claimType : String) (version priorVersion : Int) (dropped : List String)
  | misdescribed (claimType : String) (named dropped : List String)
  | versionRefused (claimType : String) (version priorVersion : Int)
  | witness (error : WitnessError)
  deriving DecidableEq

/-- One call; the file system answers while it runs. -/
structure RegisterCall (Value : Type) where
  record : Option (SpecRecord Value)
  supersede : Option SupersedeAck := none
  file : FileAnswer

section Register

variable (crypto : Crypto)

def vetReplacement (prior rec : SpecRecord Value) (supersede : Option SupersedeAck) :
    Except SpecError Unit := do
  let dropped := weakening prior rec
  let named := (supersede.map (fun ack => ack.dropped.members)).getD []
  demand (dropped ≠ [] → supersede.isSome)
    (.unacknowledged rec.claimType rec.version prior.version dropped)
  demand (dropped ≠ [] → named = dropped) (.misdescribed rec.claimType named dropped)
  demand (prior.version < rec.version) (.versionRefused rec.claimType rec.version prior.version)

/-- Everything `register` refuses on. -/
def vet (authority : SpecAuthority Value) (rec : SpecRecord Value) (supersede : Option SupersedeAck) :
    Except SpecError Unit := do
  demand (rec.attestation.method = .keyBound → verifyAttestation crypto rec = true)
    (.attestationRefused rec.claimType rec.attestation.pubkeyHex)
  let sampling := checkCarrierClaim rec.fn rec.carrier
  demand (sampling = []) (.carrierRefused rec.claimType sampling)
  let chosen := checkClaimDeterminacy rec.fn rec.carrier
  demand (chosen = ([], [])) (.underdeterminedClaim rec.claimType chosen.1 chosen.2)
  let movable := checkFrameRequirement rec.fn rec.frame
  demand (movable = []) (.frameRefused rec.claimType movable)
  match authority.records.lookup rec.claimType with
  | none => pure ()
  | some prior => vetReplacement prior rec supersede

def logEntry (rec : SpecRecord Value) (supersede : Option SupersedeAck) (screen : WitnessDetail) :
    LogEntry where
  claimType := rec.claimType
  version := rec.version
  digest := digest crypto rec
  carrier := rec.carrier
  author := rec.attestation.author
  attestationMethod := rec.attestation.method
  attestationBasis := rec.attestation.basis
  witnessScreen := screen
  superseded := (supersede.map (fun ack => ack.dropped.members)).getD []

variable (python : PyText)

/-- The authority after a call, and what the call raises. -/
def register (authority : SpecAuthority Value) (call : RegisterCall Value) :
    SpecAuthority Value × Option SpecError :=
  match call.record with
  | none => (authority, some .notARecord)
  | some rec =>
      match vet crypto authority rec call.supersede with
      | .error error => (authority, some error)
      | .ok () =>
          let held := { authority with records := authority.records.set rec.claimType rec }
          match checkWitnessResolves python call.file rec.witness with
          | .error error => (held, some (.witness error))
          | .ok screen =>
              ({ held with log := held.log ++ [logEntry crypto rec call.supersede screen] }, none)

end Register

/-! What a registration is to keep. -/

/-- The obligations held before a call that the record lacks. -/
def lost (authority : SpecAuthority Value) (rec : SpecRecord Value) : List String :=
  match authority.records.lookup rec.claimType with
  | none => []
  | some prior => weakening prior rec

section Soundness

variable (crypto : Crypto) (python : PyText)

/-- A call that raises changes nothing; one that does not raises the version and drops the
acknowledged obligations. -/
structure RegistrationSound (authority : SpecAuthority Value) (call : RegisterCall Value) : Prop where
  atomic : (register crypto python authority call).2 ≠ none →
    (register crypto python authority call).1 = authority
  version : (register crypto python authority call).2 = none → ∀ rec, call.record = some rec →
    ∀ prior, authority.records.lookup rec.claimType = some prior → prior.version < rec.version
  obligations : (register crypto python authority call).2 = none → ∀ rec, call.record = some rec →
    lost authority rec = (call.supersede.map (fun ack => ack.dropped.members)).getD []

/-- The entries of a claim type, in the order they were appended. -/
def entriesOf (log : List LogEntry) (claimType : String) : List LogEntry :=
  log.filter (fun entry => entry.claimType = claimType)

structure Registered (authority : SpecAuthority Value) : Prop where
  described : ∀ claimType rec, authority.records.lookup claimType = some rec →
    rec.claimType = claimType ∧ ∃ supersede screen,
      (entriesOf authority.log claimType).getLast? = some (logEntry crypto rec supersede screen)
  held : ∀ entry ∈ authority.log, entry.claimType ∈ authority.records.keys
  versions : ∀ claimType,
    (entriesOf authority.log claimType).Pairwise (fun first second => first.version < second.version)

/-- The screens pass the call's record only with a witness that can be looked up, and with no
acknowledgement of obligations that are not lost. -/
def CleanCall (authority : SpecAuthority Value) (call : RegisterCall Value) : Prop :=
  ∀ rec, call.record = some rec → vet crypto authority rec call.supersede = .ok () →
    (∃ screen, checkWitnessResolves python call.file rec.witness = .ok screen) ∧
      ∀ ack, call.supersede = some ack → lost authority rec = [] → ack.dropped.members = []

variable {crypto python}

theorem vetReplacement_ok {prior rec : SpecRecord Value} {supersede : Option SupersedeAck}
    (passed : vetReplacement prior rec supersede = .ok ()) :
    prior.version < rec.version ∧ (weakening prior rec ≠ [] →
      (supersede.map (fun ack => ack.dropped.members)).getD [] = weakening prior rec) := by
  simp only [vetReplacement, Checks.bind_ok_iff, Checks.demand_ok_iff, exists_const] at passed
  exact ⟨passed.2.2, passed.2.1⟩

theorem vet_ok {authority : SpecAuthority Value} {rec : SpecRecord Value}
    {supersede : Option SupersedeAck} (passed : vet crypto authority rec supersede = .ok ()) :
    (∀ prior, authority.records.lookup rec.claimType = some prior → prior.version < rec.version) ∧
      (lost authority rec ≠ [] →
        (supersede.map (fun ack => ack.dropped.members)).getD [] = lost authority rec) := by
  simp only [vet, Checks.bind_ok_iff, Checks.demand_ok_iff, exists_const] at passed
  rcases passed with ⟨_, _, _, _, replaced⟩
  unfold lost
  cases found : authority.records.lookup rec.claimType with
  | none => exact ⟨by simp, fun some => absurd rfl some⟩
  | some prior =>
      rw [found] at replaced
      rcases vetReplacement_ok replaced with ⟨newer, dropped⟩
      refine ⟨?_, dropped⟩
      intro other same
      cases same
      exact newer

/-- What a call can do: refuse, set the record and fail on its witness, or register it. -/
theorem register_cases (authority : SpecAuthority Value) (call : RegisterCall Value) :
    (∃ error, register crypto python authority call = (authority, some error) ∧
        ∀ rec, call.record = some rec → vet crypto authority rec call.supersede ≠ .ok ()) ∨
      ∃ rec, call.record = some rec ∧ vet crypto authority rec call.supersede = .ok () ∧
        ((∃ error, checkWitnessResolves python call.file rec.witness = .error error ∧
            register crypto python authority call =
              ({ authority with records := authority.records.set rec.claimType rec },
                some (.witness error))) ∨
          ∃ screen, checkWitnessResolves python call.file rec.witness = .ok screen ∧
            register crypto python authority call =
              (⟨authority.records.set rec.claimType rec,
                authority.log ++ [logEntry crypto rec call.supersede screen]⟩, none)) := by
  cases given : call.record with
  | none => exact Or.inl ⟨.notARecord, by rw [register, given], by simp⟩
  | some rec =>
      cases passed : vet crypto authority rec call.supersede with
      | error error =>
          left
          refine ⟨error, by simp only [register, given, passed], ?_⟩
          intro other same
          cases same
          rw [passed]
          simp
      | ok done =>
          right
          refine ⟨rec, rfl, passed, ?_⟩
          cases witness : checkWitnessResolves python call.file rec.witness with
          | error error => exact Or.inl ⟨error, rfl, by simp only [register, given, passed, witness]⟩
          | ok screen => exact Or.inr ⟨screen, rfl, by simp only [register, given, passed, witness]⟩

theorem registered_empty : Registered crypto (⟨Dict.empty, []⟩ : SpecAuthority Value) where
  described := by
    intro claimType rec found
    cases found
  held := by simp
  versions := fun _ => List.Pairwise.nil

theorem version_le_last {entries : List LogEntry} {last : LogEntry}
    (increasing : entries.Pairwise (fun first second => first.version < second.version))
    (ends : entries.getLast? = some last) : ∀ entry ∈ entries, entry.version ≤ last.version := by
  rcases List.getLast?_eq_some_iff.mp ends with ⟨init, rfl⟩
  intro entry member
  rcases List.mem_append.mp member with earlier | same
  · exact le_of_lt ((List.pairwise_append.mp increasing).2.2 entry earlier last (by simp))
  · rw [List.mem_singleton.mp same]

/-- A record newer than the one held is newer than every entry of its claim type. -/
theorem Registered.below {authority : SpecAuthority Value} (registered : Registered crypto authority)
    {rec : SpecRecord Value} (newer : ∀ prior,
      authority.records.lookup rec.claimType = some prior → prior.version < rec.version) :
    ∀ entry ∈ entriesOf authority.log rec.claimType, entry.version < rec.version := by
  intro entry member
  rcases List.mem_filter.mp member with ⟨logged, typed⟩
  have known := registered.held entry logged
  rw [of_decide_eq_true typed] at known
  rcases (Dict.mem_keys _ _).mp known with ⟨prior, found⟩
  rcases registered.described _ prior found with ⟨_, supersede, screen, ends⟩
  calc
    entry.version ≤ (logEntry crypto prior supersede screen).version :=
      version_le_last (registered.versions _) ends entry member
    _ = prior.version := rfl
    _ < rec.version := newer prior found

/-- Setting a newer record and logging it keeps the log in step with the records. -/
theorem Registered.append {authority : SpecAuthority Value}
    (registered : Registered crypto authority) (rec : SpecRecord Value)
    (supersede : Option SupersedeAck) (screen : WitnessDetail)
    (newer : ∀ prior, authority.records.lookup rec.claimType = some prior →
      prior.version < rec.version) :
    Registered crypto ⟨authority.records.set rec.claimType rec,
      authority.log ++ [logEntry crypto rec supersede screen]⟩ := by
  have own : entriesOf (authority.log ++ [logEntry crypto rec supersede screen]) rec.claimType =
      entriesOf authority.log rec.claimType ++ [logEntry crypto rec supersede screen] := by
    simp [entriesOf, logEntry]
  have foreign : ∀ claimType, rec.claimType ≠ claimType →
      entriesOf (authority.log ++ [logEntry crypto rec supersede screen]) claimType =
        entriesOf authority.log claimType := by
    intro claimType other
    simp [entriesOf, logEntry, other]
  constructor
  · intro claimType held found
    rw [Dict.lookup_set] at found
    split_ifs at found with same
    · cases found
      subst same
      exact ⟨rfl, supersede, screen, by rw [own, List.getLast?_concat]⟩
    · rw [foreign claimType same]
      exact registered.described claimType held found
  · intro entry member
    rw [Dict.mem_keys]
    simp only [Dict.lookup_set]
    rcases List.mem_append.mp member with old | new
    · split_ifs
      · exact ⟨rec, rfl⟩
      · exact (Dict.mem_keys _ _).mp (registered.held entry old)
    · rw [List.mem_singleton.mp new]
      exact ⟨rec, if_pos rfl⟩
  · intro claimType
    by_cases same : rec.claimType = claimType
    · subst same
      rw [own, List.pairwise_append]
      refine ⟨registered.versions _, List.pairwise_singleton _ _, ?_⟩
      intro entry member last single
      rw [List.mem_singleton.mp single]
      exact registered.below newer entry member
    · rw [foreign claimType same]
      exact registered.versions claimType

/-- A call is sound and keeps log and records in step exactly if it is clean. -/
theorem registration_sound_iff {authority : SpecAuthority Value}
    (registered : Registered crypto authority) (call : RegisterCall Value) :
    RegistrationSound crypto python authority call ∧
        Registered crypto (register crypto python authority call).1 ↔
      CleanCall crypto python authority call := by
  rcases @register_cases Value crypto python authority call with
    ⟨error, refused, unvetted⟩ | ⟨rec, given, passed, ⟨error, witness, failed⟩ | ⟨screen, witness, ok⟩⟩
  · constructor
    · exact fun _ rec given passed => absurd passed (unvetted rec given)
    · intro _
      rw [refused]
      exact ⟨⟨fun _ => by rw [refused], by rw [refused]; simp, by rw [refused]; simp⟩, registered⟩
  · constructor
    · intro sound
      have same := sound.1.atomic (by rw [failed]; simp)
      rw [failed] at same
      have held : authority.records.lookup rec.claimType = some rec := by
        rw [← congrArg SpecAuthority.records same, Dict.lookup_set, if_pos rfl]
      exact absurd ((vet_ok passed).1 rec held) (lt_irrefl _)
    · intro clean
      rcases (clean rec given passed).1 with ⟨screen, resolved⟩
      rw [witness] at resolved
      cases resolved
  · rcases vet_ok passed with ⟨newer, dropped⟩
    constructor
    · intro sound other same _
      rw [given] at same
      cases same
      refine ⟨⟨screen, witness⟩, ?_⟩
      intro ack acknowledged none
      have exact_loss := sound.1.obligations (by rw [ok]) rec given
      rw [none, acknowledged] at exact_loss
      exact exact_loss.symm
    · intro clean
      refine ⟨⟨fun raised => absurd (by rw [ok]) raised, ?_, ?_⟩, ?_⟩
      · intro _ other same
        rw [given] at same
        cases same
        exact newer
      · intro _ other same
        rw [given] at same
        cases same
        by_cases none : lost authority rec = []
        · cases acknowledged : call.supersede with
          | none => exact none
          | some ack =>
              have empty := (clean rec given passed).2 ack acknowledged none
              simp only [none, Option.map_some, Option.getD_some, empty]
        · exact (dropped none).symm
      · rw [ok]
        exact registered.append rec call.supersede screen newer

end Soundness

/-- The authority after a call, whatever the call raises. -/
def registerStep (crypto : Crypto) (python : PyText) (authority : SpecAuthority Value)
    (call : RegisterCall Value) : SpecAuthority Value :=
  (register crypto python authority call).1

/-- In a history of registrations every call is atomic, raises the version and drops what is
acknowledged, and the log describes the records, exactly if every call is clean. -/
theorem registrations_sound_iff (crypto : Crypto) (python : PyText)
    (calls : List (RegisterCall Value)) :
    (∀ front call back, calls = front ++ call :: back →
      RegistrationSound crypto python (Run.run (registerStep crypto python) {} front) call ∧
        Registered crypto (Run.run (registerStep crypto python) {} (front ++ [call]))) ↔
      Run.Admissible (registerStep crypto python) (CleanCall crypto python) {} calls :=
  Run.fine_iff_admissible (registerStep crypto python) (CleanCall crypto python)
    (RegistrationSound crypto python) (Registered crypto)
    (fun _ call registered => registration_sound_iff registered call) {} calls registered_empty

namespace Sample

def decimal (c : Char) : Bool := '0' ≤ c ∧ c ≤ '9'

/-- On ASCII texts and the superscript two, which is a digit but no decimal. -/
def pyText : PyText where
  isdigit text := !text.toList.isEmpty && text.toList.all (fun c => decimal c || c = '\u00b2')
  int text :=
    if !text.toList.isEmpty && text.toList.all decimal then
      some (text.toList.foldl (fun number c => 10 * number + (c.toNat - '0'.toNat)) 0)
    else none

def attestation : Attestation where
  author := "reviewer"
  method := .selfAsserted
  basis := "re-derived by hand"
  author_stated := by decide
  basis_stated := by decide
  bound := by simp

/-- A function of one parameter that answers the same to every call. -/
def constant (answer : Outcome) : PyFunction Unit := ⟨some [⟨"data", false, false⟩], fun _ _ => answer⟩

def specRecord (fn : PyFunction Unit) : SpecRecord Unit where
  claimType := "content_address"
  successCondition := "the digest of the data is the address"
  fn := fn
  carrier := .proof
  invariantClass := .inl .conservation
  attestation := attestation
  frame := .inr ⟨"no reference set", by decide⟩
  obligations := ⟨["digest"], by simp⟩
  version := 1
  witness := "gyza/adapters.py:\u00b2"
  claimType_stated := by decide
  successCondition_stated := by decide
  witness_stated := by decide
  obligations_nonempty := by simp
  version_positive := by decide

/-- The cited file is there; its line number is no number. -/
def oddWitness : RegisterCall Unit := ⟨some (specRecord (constant (.bool true))), none, .lines 40⟩

end Sample

/-- The call raises, and the record stays without a log entry. -/
theorem registration_not_atomic :
    ¬∀ front call back, [Sample.oddWitness] = front ++ call :: back →
      RegistrationSound Gyza.Sample.crypto Sample.pyText
          (Run.run (registerStep Gyza.Sample.crypto Sample.pyText) {} front) call ∧
        Registered Gyza.Sample.crypto
          (Run.run (registerStep Gyza.Sample.crypto Sample.pyText) {} (front ++ [call])) := by
  intro sound
  have clean := (registration_sound_iff registered_empty Sample.oddWitness).mp
    (sound [] Sample.oddWitness [] rfl)
  have passed : vet Gyza.Sample.crypto (⟨Dict.empty, []⟩ : SpecAuthority Unit)
      (Sample.specRecord (Sample.constant (.bool true))) none = .ok () := by decide +kernel
  have raises : checkWitnessResolves Sample.pyText (.lines 40) "gyza/adapters.py:\u00b2" =
      .error .valueError := by decide +kernel
  rcases (clean _ rfl passed).1 with ⟨screen, resolved⟩
  have failed := raises.symm.trans resolved
  cases failed

end Gyza.Verification

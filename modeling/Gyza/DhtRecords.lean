import Gyza.Attestation
import Gyza.Lib.Register
import Mathlib.Data.List.Lex
import Mathlib.Data.Prod.Lex

/-! Records of the DHT: `gyzaValidator` of `internal/dht/dht.go`, which says what a
node stores and which of several records for one key it keeps. -/

namespace Gyza

open Hex (Bytes)

structure AgentAdvertisement where
  agentPubkey : String
  compositorPubkey : String
  specializationEmbedding : Bytes
  attestationTier : Int
  reputationScore : Float

structure AgentBucket where
  advertisements : List (Option AgentAdvertisement)
  lastUpdatedNs : Int

structure RelayList where
  lastUpdatedNs : Int

/-- `proto.Unmarshal` at each of the record types. -/
structure RecordCodec where
  relayList : Bytes → Option RelayList
  attestationCert : Bytes → Option GoAttestationCert
  agentBucket : Bytes → Option AgentBucket

def maxBucketSize : Nat := 2 ^ 20

def relayDHTKey : String := "/gyza/relays"

def attestationKeyPrefix : String := "/gyza/attestations/"

def attestationExpiryGrace : Int := 5 * 60 * 1000000000

/-- Arithmetic on `int64` wraps. -/
def goInt64 (value : Int) : Int := value.bmod (2 ^ 64)

def isRelay (key : Bytes) : Bool := (Hex.utf8 relayDHTKey).isPrefixOf key

def isAttestation (key : Bytes) : Bool := (Hex.utf8 attestationKeyPrefix).isPrefixOf key

inductive ValidateError where
  | exceedsSize (length : Nat)
  | notRelayList
  | notAttestationCert
  | attestationExpired (expiresAtNs nowNs : Int)
  | notAgentBucket
  deriving DecidableEq

inductive SelectError where
  | emptySlice
  | allMalformed
  deriving DecidableEq

section Validator

variable (codec : RecordCodec)

def validateRecord (nowNs : Int) (key value : Bytes) : Except ValidateError Unit :=
  if value.length > maxBucketSize then .error (.exceedsSize value.length)
  else if isRelay key then
    match codec.relayList value with
    | none => .error .notRelayList
    | some _ => .ok ()
  else if isAttestation key then
    match codec.attestationCert value with
    | none => .error .notAttestationCert
    | some ⟨none, _⟩ => .ok ()
    | some ⟨some body, _⟩ =>
        if 0 < body.expiresAtNs ∧ goInt64 (body.expiresAtNs + attestationExpiryGrace) < nowNs then
          .error (.attestationExpired body.expiresAtNs nowNs)
        else .ok ()
  else
    match codec.agentBucket value with
    | none => .error .notAgentBucket
    | some _ => .ok ()

/-- `lastUpdated` of a candidate, or nothing where the loop continues without it. -/
def lastUpdated (key value : Bytes) : Option Int :=
  if isRelay key then (codec.relayList value).map RelayList.lastUpdatedNs
  else if isAttestation key then
    match codec.attestationCert value with
    | some ⟨some body, _⟩ => some body.issuedAtNs
    | _ => none
  else (codec.agentBucket value).map AgentBucket.lastUpdatedNs

structure Selection where
  bestIdx : Option Nat
  bestUpdated : Int
  bestBytes : Bytes
  deriving DecidableEq

def Selection.initial : Selection := { bestIdx := none, bestUpdated := -1, bestBytes := [] }

/-- `bytes.Compare` orders byte strings as lists of numbers. -/
def comparable (value : Bytes) : List Nat := value.map UInt8.toNat

def selectNext (key : Bytes) (best : Selection) (candidate : Bytes × Nat) : Selection :=
  match lastUpdated codec key candidate.1 with
  | none => best
  | some updated =>
      if updated > best.bestUpdated ∨
          (updated = best.bestUpdated ∧ comparable candidate.1 > comparable best.bestBytes) then
        { bestIdx := some candidate.2, bestUpdated := updated, bestBytes := candidate.1 }
      else best

def selectRecord (key : Bytes) (values : List Bytes) : Except SelectError Nat :=
  if values = [] then .error .emptySlice
  else
    match (values.zipIdx.foldl (selectNext codec key) Selection.initial).bestIdx with
    | none => .error .allMalformed
    | some index => .ok index

/-! Selection as a last-writer-wins register over the candidates. -/

def recordStamp (time : Int) (value : Bytes) : Int ×ₗ List Nat := toLex (time, comparable value)

def Selection.stamp (best : Selection) : Int ×ₗ List Nat :=
  recordStamp best.bestUpdated best.bestBytes

/-- A candidate is a write of its value and its place in the list. -/
def selectionRegister (key : Bytes) :
    Register.Spec Selection (Bytes × Nat) (Int ×ₗ List Nat) where
  stampOf := Selection.stamp
  stamp := fun candidate =>
    recordStamp ((lastUpdated codec key candidate.1).getD (-1)) candidate.1
  write := fun _ candidate =>
    { bestIdx := some candidate.2
      bestUpdated := (lastUpdated codec key candidate.1).getD (-1)
      bestBytes := candidate.1 }
  stampOf_write := fun _ _ => rfl
  write_write := fun _ _ _ => rfl

def Dated (key : Bytes) (candidate : Bytes × Nat) : Prop :=
  (lastUpdated codec key candidate.1).isSome = true

instance (key : Bytes) : DecidablePred (Dated codec key) :=
  fun candidate => inferInstanceAs (Decidable ((lastUpdated codec key candidate.1).isSome = true))

theorem recordStamp_lt_iff (time other : Int) (value bytes : Bytes) :
    recordStamp other bytes < recordStamp time value ↔
      time > other ∨ (time = other ∧ comparable value > comparable bytes) := by
  unfold recordStamp
  rw [Prod.Lex.toLex_lt_toLex]
  constructor
  · rintro (later | ⟨same, larger⟩)
    · exact Or.inl later
    · exact Or.inr ⟨same.symm, larger⟩
  · rintro (later | ⟨same, larger⟩)
    · exact Or.inl later
    · exact Or.inr ⟨same.symm, larger⟩

theorem comparable_injective : Function.Injective comparable :=
  List.map_injective_iff.mpr fun _ _ same => UInt8.toNat_inj.mp same

/-- The pair of timestamp and bytes tells two records apart. -/
theorem recordStamp_inj {time other : Int} {value bytes : Bytes}
    (same : recordStamp time value = recordStamp other bytes) : value = bytes := by
  have pair : (time, comparable value) = (other, comparable bytes) := toLex.injective same
  exact comparable_injective (congrArg Prod.snd pair)

theorem selectNext_eq_merge (key : Bytes) (best : Selection) (candidate : Bytes × Nat) :
    selectNext codec key best candidate =
      Register.merge (selectionRegister codec key) (Dated codec key) best candidate := by
  unfold selectNext
  cases found : lastUpdated codec key candidate.1 with
  | none =>
      rw [Register.merge_skips]
      left
      simp [Dated, found]
  | some updated =>
      have dated : Dated codec key candidate := by simp [Dated, found]
      have stamped : (selectionRegister codec key).stamp candidate =
          recordStamp updated candidate.1 := by
        simp only [selectionRegister, found, Option.getD_some]
      dsimp only
      split_ifs with newer
      · rw [Register.merge_takes _ _ dated]
        · simp only [selectionRegister, found, Option.getD_some]
        · rw [stamped]
          exact (recordStamp_lt_iff _ _ _ _).mpr newer
      · rw [Register.merge_skips]
        right
        rw [stamped]
        exact not_lt.mp (fun above => newer ((recordStamp_lt_iff _ _ _ _).mp above))

theorem select_fold_eq (key : Bytes) (candidates : List (Bytes × Nat)) (best : Selection) :
    candidates.foldl (selectNext codec key) best =
      candidates.foldl (Register.merge (selectionRegister codec key) (Dated codec key)) best := by
  have step : selectNext codec key =
      Register.merge (selectionRegister codec key) (Dated codec key) := by
    funext state candidate
    exact selectNext_eq_merge codec key state candidate
  rw [step]

/-- The candidate beats the state the loop starts in. -/
def Selectable (key value : Bytes) : Prop :=
  ∃ time, lastUpdated codec key value = some time ∧
    Selection.initial.stamp < recordStamp time value

/-- Greatest by timestamp and bytes among the candidates that have a timestamp. -/
def GreatestRecord (key : Bytes) (values : List Bytes) (value : Bytes) : Prop :=
  value ∈ values ∧ ∃ time, lastUpdated codec key value = some time ∧
    ∀ other ∈ values, ∀ updated, lastUpdated codec key other = some updated →
      recordStamp updated other ≤ recordStamp time value

def Selects (key : Bytes) (values : List Bytes) (value : Bytes) : Prop :=
  ∃ index, selectRecord codec key values = .ok index ∧ values[index]? = some value

/-- Selection succeeds with a greatest record, and with the same bytes on every
list of the same records, whatever their order and multiplicity. -/
def SelectJoins (key : Bytes) (values : List Bytes) : Prop :=
  ∃ value, GreatestRecord codec key values value ∧
    ∀ others : List Bytes, (∀ record, record ∈ others ↔ record ∈ values) →
      Selects codec key others value

theorem GreatestRecord.unique {key : Bytes} {values : List Bytes} {first second : Bytes}
    (one : GreatestRecord codec key values first)
    (two : GreatestRecord codec key values second) : first = second := by
  rcases one with ⟨listed, time, dated, above⟩
  rcases two with ⟨listed', time', dated', above'⟩
  exact recordStamp_inj (le_antisymm (above' first listed time dated)
    (above second listed' time' dated'))

theorem GreatestRecord.of_same_records {key : Bytes} {values others : List Bytes} {value : Bytes}
    (greatest : GreatestRecord codec key values value)
    (same : ∀ record, record ∈ others ↔ record ∈ values) :
    GreatestRecord codec key others value := by
  rcases greatest with ⟨listed, time, dated, above⟩
  exact ⟨(same value).mpr listed, time, dated,
    fun other member => above other ((same other).mp member)⟩

/-- The loop ends with the greatest record when some candidate beats its start. -/
theorem selects_of_selectable {key : Bytes} {values : List Bytes} {candidate : Bytes}
    (listed : candidate ∈ values) (selectable : Selectable codec key candidate) :
    ∃ value, Selects codec key values value ∧ GreatestRecord codec key values value := by
  rcases selectable with ⟨time, dated, beats⟩
  rcases List.mem_iff_getElem?.mp listed with ⟨place, found⟩
  have offered : (candidate, place) ∈ values.zipIdx := List.mk_mem_zipIdx_iff_getElem?.mpr found
  rcases Register.foldl_merge (selectionRegister codec key) (Dated codec key) values.zipIdx
    Selection.initial with ⟨top, isTop, result⟩ | ⟨stale, -⟩
  · have at_place : values[top.2]? = some top.1 :=
      List.mk_mem_zipIdx_iff_getElem?.mp isTop.listed
    rcases Option.isSome_iff_exists.mp isTop.valid_top with ⟨updated, datedTop⟩
    refine ⟨top.1, ⟨top.2, ?_, at_place⟩, List.mem_of_getElem? at_place, updated, datedTop, ?_⟩
    · have some_value : values ≠ [] := List.ne_nil_of_mem listed
      rw [selectRecord, if_neg some_value, select_fold_eq, result]
      rfl
    · intro other member otherTime datedOther
      rcases List.mem_iff_getElem?.mp member with ⟨index, foundOther⟩
      have below := isTop.greatest (other, index)
        (List.mk_mem_zipIdx_iff_getElem?.mpr foundOther) (by simp [Dated, datedOther])
      simpa [selectionRegister, datedOther, datedTop] using below
  · have below := stale (candidate, place) offered (by simp [Dated, dated])
    have stamped : (selectionRegister codec key).stamp (candidate, place) =
        recordStamp time candidate := by
      simp only [selectionRegister, dated, Option.getD_some]
    rw [stamped] at below
    exact absurd below (not_le.mpr beats)

/-- What is selected beat the loop's start. -/
theorem selectable_of_selects {key : Bytes} {values : List Bytes} {value : Bytes}
    (selects : Selects codec key values value) : ∃ record ∈ values, Selectable codec key record := by
  rcases selects with ⟨index, selected, -⟩
  unfold selectRecord at selected
  split_ifs at selected
  rw [select_fold_eq] at selected
  rcases Register.foldl_merge (selectionRegister codec key) (Dated codec key) values.zipIdx
    Selection.initial with ⟨top, isTop, -⟩ | ⟨-, result⟩
  · have at_place : values[top.2]? = some top.1 :=
      List.mk_mem_zipIdx_iff_getElem?.mp isTop.listed
    rcases Option.isSome_iff_exists.mp isTop.valid_top with ⟨updated, dated⟩
    have beats := isTop.exceeds
    have stamped : (selectionRegister codec key).stamp top = recordStamp updated top.1 := by
      simp only [selectionRegister, dated, Option.getD_some]
    rw [stamped] at beats
    exact ⟨top.1, List.mem_of_getElem? at_place, updated, dated, beats⟩
  · rw [result] at selected
    cases selected

theorem selectJoins_iff_selectable (key : Bytes) (values : List Bytes) :
    SelectJoins codec key values ↔ ∃ value ∈ values, Selectable codec key value := by
  constructor
  · rintro ⟨value, -, selects⟩
    exact selectable_of_selects codec (selects values fun _ => Iff.rfl)
  · rintro ⟨candidate, listed, selectable⟩
    rcases selects_of_selectable codec listed selectable with ⟨value, -, greatest⟩
    refine ⟨value, greatest, fun others same => ?_⟩
    rcases selects_of_selectable codec ((same candidate).mpr listed) selectable with
      ⟨other, selects, otherGreatest⟩
    have agree : other = value :=
      GreatestRecord.unique codec otherGreatest (greatest.of_same_records codec same)
    rwa [agree] at selects

/-- A record the loop passes by: a certificate without a body, or a timestamp that
does not exceed the sentinel. -/
def Overlooked (key value : Bytes) : Prop :=
  (isRelay key = false ∧ isAttestation key = true ∧
      ∃ cosignatures, codec.attestationCert value = some ⟨none, cosignatures⟩) ∨
    ∃ time, lastUpdated codec key value = some time ∧ (time < -1 ∨ (time = -1 ∧ value = []))

/-- Validation lets one kind of record through that has no timestamp. -/
theorem lastUpdated_of_validated {key value : Bytes} {nowNs : Int}
    (accepted : validateRecord codec nowNs key value = .ok ()) :
    (∃ time, lastUpdated codec key value = some time) ∨
      (isRelay key = false ∧ isAttestation key = true ∧
        ∃ cosignatures, codec.attestationCert value = some ⟨none, cosignatures⟩) := by
  unfold validateRecord at accepted
  unfold lastUpdated
  by_cases large : value.length > maxBucketSize
  · rw [if_pos large] at accepted
    cases accepted
  rw [if_neg large] at accepted
  cases relay : isRelay key with
  | true =>
      rw [relay, if_pos rfl] at accepted
      rw [if_pos rfl]
      split at accepted
      · cases accepted
      · rename_i relays decoded
        exact Or.inl ⟨relays.lastUpdatedNs, by rw [decoded]; rfl⟩
  | false =>
      rw [relay, if_neg Bool.false_ne_true] at accepted
      rw [if_neg Bool.false_ne_true]
      cases attestation : isAttestation key with
      | true =>
          rw [attestation, if_pos rfl] at accepted
          rw [if_pos rfl]
          split at accepted
          · cases accepted
          · rename_i cosignatures decoded
            exact Or.inr ⟨rfl, rfl, cosignatures, decoded⟩
          · rename_i body cosignatures decoded
            exact Or.inl ⟨body.issuedAtNs, by rw [decoded]⟩
      | false =>
          rw [attestation, if_neg Bool.false_ne_true] at accepted
          rw [if_neg Bool.false_ne_true]
          split at accepted
          · cases accepted
          · rename_i bucket decoded
            exact Or.inl ⟨bucket.lastUpdatedNs, by rw [decoded]; rfl⟩

theorem beats_initial_iff (time : Int) (value : Bytes) :
    Selection.initial.stamp < recordStamp time value ↔ ¬(time < -1 ∨ (time = -1 ∧ value = [])) := by
  rw [Selection.stamp, recordStamp_lt_iff]
  have larger : comparable value > comparable Selection.initial.bestBytes ↔ value ≠ [] := by
    cases value with
    | nil => simp [comparable, Selection.initial]
    | cons head rest => simp [comparable, Selection.initial]
  rw [larger]
  simp only [Selection.initial, gt_iff_lt, not_or, not_and, not_lt]
  constructor
  · rintro (later | ⟨same, filled⟩)
    · exact ⟨by omega, by omega⟩
    · exact ⟨by omega, fun _ => filled⟩
  · rintro ⟨reaches, filled⟩
    by_cases same : time = -1
    · exact Or.inr ⟨same, filled same⟩
    · exact Or.inl (by omega)

theorem selectable_iff_of_validated {key value : Bytes} {nowNs : Int}
    (accepted : validateRecord codec nowNs key value = .ok ()) :
    Selectable codec key value ↔ ¬Overlooked codec key value := by
  constructor
  · rintro ⟨time, dated, beats⟩ (⟨relay, attestation, cosignatures, decoded⟩ | ⟨other, same, low⟩)
    · simp [lastUpdated, relay, attestation, decoded] at dated
    · rw [dated, Option.some.injEq] at same
      subst same
      exact (beats_initial_iff time value).mp beats low
  · intro met
    rcases lastUpdated_of_validated codec accepted with ⟨time, dated⟩ | bodiless
    · refine ⟨time, dated, (beats_initial_iff time value).mpr fun low => ?_⟩
      exact met (Or.inr ⟨time, dated, low⟩)
    · exact absurd (Or.inl bodiless) met

end Validator

/-! The empty record is the default message of every type: a certificate without a
body, and a bucket or a relay list last updated at zero. -/

def emptyMessages : RecordCodec where
  relayList := fun value => if value = [] then some { lastUpdatedNs := 0 } else none
  attestationCert := fun value => if value = [] then some { body := none, coSignatures := [] } else none
  agentBucket := fun value =>
    if value = [] then some { advertisements := [], lastUpdatedNs := 0 } else none

end Gyza

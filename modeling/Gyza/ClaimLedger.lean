import Gyza.SpecAuthority
import Gyza.TierAlgebra

/-! The claim ledger (`gyza/verification/ledger.py`), with the registries of verifiers and
partial specs (`registry.py`) and the router between them and the authority (`router.py`).

The router says that a verdict is governed by looking at the authority; the check whose
answer becomes the status is the one in the registry of verifiers. -/

namespace Gyza.Verification

open Staging (InvariantClass)
open Checks (Answers)

variable {Value : Type}

/-! The registries. -/

structure Verifier (Value : Type) where
  claimType : String
  fn : PyFunction Value
  witness : String
  carrier : Carrier
  native : carrier ≠ .spec

/-- `cls` is `none` for a value that is no class tag. -/
structure PartialSpec (Value : Type) where
  claimType : String
  fn : PyFunction Value
  cls : Option InvariantClass
  authoredBy : String
  humanAttested : Bool
  rationale : String

inductive RegistryError where
  | alreadyRegistered (claimType : String)
  | noWitness (claimType : String)
  | notAttested (claimType : String)
  | untagged (claimType : String)
  | noAuthor
  deriving DecidableEq

def Verifier.Cited (verifier : Verifier Value) (claimType : String) : Prop :=
  verifier.claimType = claimType ∧ verifier.witness ≠ ""

def PartialSpec.Attested (spec : PartialSpec Value) (claimType : String) : Prop :=
  spec.claimType = claimType ∧ spec.humanAttested = true ∧ spec.cls.isSome ∧ spec.authoredBy ≠ ""

structure VerifierRegistry (Value : Type) where
  verifiers : Dict String (Verifier Value)
  cited : ∀ claimType verifier,
    verifiers.lookup claimType = some verifier → verifier.Cited claimType

structure PartialSpecRegistry (Value : Type) where
  specs : Dict String (PartialSpec Value)
  attested : ∀ claimType spec, specs.lookup claimType = some spec → spec.Attested claimType

theorem cited_empty (claimType : String) (verifier : Verifier Value)
    (found : (Dict.empty : Dict String (Verifier Value)).lookup claimType = some verifier) :
    verifier.Cited claimType := by
  cases found

theorem attested_empty (claimType : String) (spec : PartialSpec Value)
    (found : (Dict.empty : Dict String (PartialSpec Value)).lookup claimType = some spec) :
    spec.Attested claimType := by
  cases found

def VerifierRegistry.empty : VerifierRegistry Value := ⟨Dict.empty, cited_empty⟩

def PartialSpecRegistry.empty : PartialSpecRegistry Value := ⟨Dict.empty, attested_empty⟩

theorem VerifierRegistry.cited_set (registry : VerifierRegistry Value) (v : Verifier Value)
    (witnessed : v.witness ≠ "") (claimType : String) (verifier : Verifier Value)
    (found : (registry.verifiers.set v.claimType v).lookup claimType = some verifier) :
    verifier.Cited claimType := by
  rw [Dict.lookup_set] at found
  split_ifs at found with same
  · cases found
    exact ⟨same, witnessed⟩
  · exact registry.cited claimType verifier found

def VerifierRegistry.register (registry : VerifierRegistry Value) (v : Verifier Value) :
    Except RegistryError (VerifierRegistry Value) :=
  if v.claimType ∈ registry.verifiers.keys then .error (.alreadyRegistered v.claimType)
  else if witnessed : v.witness = "" then .error (.noWitness v.claimType)
  else .ok ⟨registry.verifiers.set v.claimType v, registry.cited_set v witnessed⟩

theorem PartialSpecRegistry.attested_set (registry : PartialSpecRegistry Value)
    (s : PartialSpec Value) (attests : s.humanAttested = true ∧ s.cls.isSome ∧ s.authoredBy ≠ "")
    (claimType : String) (spec : PartialSpec Value)
    (found : (registry.specs.set s.claimType s).lookup claimType = some spec) :
    spec.Attested claimType := by
  rw [Dict.lookup_set] at found
  split_ifs at found with same
  · cases found
    exact ⟨same, attests⟩
  · exact registry.attested claimType spec found

/-- A second spec of a claim type takes the first one's place. -/
def PartialSpecRegistry.register (registry : PartialSpecRegistry Value) (s : PartialSpec Value) :
    Except RegistryError (PartialSpecRegistry Value) :=
  if attests : s.humanAttested = true ∧ s.cls.isSome ∧ s.authoredBy ≠ "" then
    .ok ⟨registry.specs.set s.claimType s, registry.attested_set s attests⟩
  else if s.humanAttested = false then .error (.notAttested s.claimType)
  else if s.cls.isNone then .error (.untagged s.claimType)
  else .error .noAuthor

/-- Registering does not replace a verifier. -/
theorem VerifierRegistry.register_keeps {registry after : VerifierRegistry Value}
    {v old : Verifier Value} {claimType : String} (registered : registry.register v = .ok after)
    (held : registry.verifiers.lookup claimType = some old) :
    after.verifiers.lookup claimType = some old := by
  unfold VerifierRegistry.register at registered
  split_ifs at registered with taken witnessed
  cases registered
  have other : v.claimType ≠ claimType := by
    intro same
    exact taken ((Dict.mem_keys _ _).mpr ⟨old, same ▸ held⟩)
  rw [Dict.lookup_set, if_neg other, held]

theorem PartialSpecRegistry.register_answers_iff (registry : PartialSpecRegistry Value)
    (s : PartialSpec Value) :
    Answers (registry.register s) ↔
      s.humanAttested = true ∧ s.cls.isSome ∧ s.authoredBy ≠ "" := by
  unfold PartialSpecRegistry.register
  split_ifs with attests
  · simp [attests]
  all_goals simp [attests]

/-! Routing. -/

inductive CutoverPolicy where
  | failClosed
  | dualRead
  deriving DecidableEq

inductive RoutingReason where
  | governed (author : String) (method : AttestationMethod) (carrier : Carrier) (version : Int)
  | failClosed
  | fallback (legacy : RoutingReason)
  | native (witness : String)
  | partialSpec
  | containment
  deriving DecidableEq

structure Routing where
  claimType : String
  tier : Int
  reason : RoutingReason
  carrier : String
  governed : Bool := false
  deriving DecidableEq

/-- An authority comes with its policy. -/
structure TierRouter (Value : Type) where
  verifiers : VerifierRegistry Value
  specs : PartialSpecRegistry Value
  authority : Option (SpecAuthority Value × CutoverPolicy)

namespace TierRouter

def routeLegacy (router : TierRouter Value) (claimType : String) : Routing :=
  match router.verifiers.verifiers.lookup claimType with
  | some v => ⟨claimType, 1, .native v.witness, v.carrier.text, false⟩
  | none =>
      if claimType ∈ router.specs.specs.keys then ⟨claimType, 2, .partialSpec, "SPEC", false⟩
      else ⟨claimType, 3, .containment, "NONE", false⟩

def route (router : TierRouter Value) (claimType : String) : Routing :=
  match router.authority with
  | none => router.routeLegacy claimType
  | some (authority, policy) =>
      match authority.records.lookup claimType with
      | some rec =>
          ⟨claimType, if rec.carrier = .spec then 2 else 1,
            .governed rec.attestation.author rec.attestation.method rec.carrier rec.version,
            rec.carrier.text, true⟩
      | none =>
          if policy = .failClosed then ⟨claimType, 3, .failClosed, "NONE", false⟩
          else
            let legacy := router.routeLegacy claimType
            ⟨claimType, legacy.tier, .fallback legacy.reason, legacy.carrier, false⟩

end TierRouter

/-! Claims and verdicts. -/

structure EmittedClaim (Value : Type) where
  claimType : String
  verifyArgs : List Value
  verifyKwargs : Dict String Value
  typed : claimType ≠ ""

inductive LedgerError where
  | untyped
  deriving DecidableEq

def emit (claims : List (EmittedClaim Value)) (claimType : String) (verifyArgs : List Value)
    (verifyKwargs : Dict String Value) : Except LedgerError (List (EmittedClaim Value)) :=
  if typed : claimType = "" then .error .untyped
  else .ok (claims ++ [⟨claimType, verifyArgs, verifyKwargs, typed⟩])

inductive ClaimStatus where
  | verified
  | refuted
  | unevaluated
  deriving DecidableEq

inductive VerdictDetail where
  | noVerifier
  | raised (reason : String)
  | matched
  | diverged
  | notBool (typeName : String)
  deriving DecidableEq

structure ClaimVerdict where
  claimType : String
  status : ClaimStatus
  detail : VerdictDetail
  tier : Int
  carrier : String
  governed : Bool
  deriving DecidableEq

inductive AttemptError where
  | multipleValues
  | uncaught (reason : String)
  deriving DecidableEq

/-- Whether `except catching` takes what a call raised and makes a text of it; `none` is the
default `Exception`. -/
abbrev Catching (Value : Type) := Option Value → String → Bool

/-- `attempt(fn, *args, where=claim_type, **kwargs)`: its own parameters are taken from the
claim's keywords. -/
def attempt (catching : Catching Value) (fn : PyFunction Value) (claim : EmittedClaim Value) :
    Except AttemptError Outcome :=
  if "fn" ∈ claim.verifyKwargs.keys ∨ "where" ∈ claim.verifyKwargs.keys then .error .multipleValues
  else
    match fn.call claim.verifyArgs (claim.verifyKwargs.pop "catching") with
    | .raises reason =>
        if catching (claim.verifyKwargs.lookup "catching") reason then .ok (.failure reason)
        else .error (.uncaught reason)
    | answer => .ok answer

def judge : Outcome → ClaimStatus × VerdictDetail
  | .bool true => (.verified, .matched)
  | .bool false => (.refuted, .diverged)
  | .failure reason => (.unevaluated, .raised reason)
  | .raises reason => (.unevaluated, .raised reason)
  | .other typeName => (.unevaluated, .notBool typeName)

section Verify

variable (catching : Catching Value) (router : TierRouter Value)
  (verifiers : VerifierRegistry Value)

def verdictOf (claim : EmittedClaim Value) : Except AttemptError ClaimVerdict :=
  let routing := router.route claim.claimType
  match verifiers.verifiers.lookup claim.claimType with
  | none => .ok ⟨claim.claimType, .unevaluated, .noVerifier, routing.tier, routing.carrier,
      routing.governed⟩
  | some verifier =>
      (attempt catching verifier.fn claim).map (fun out =>
        ⟨claim.claimType, (judge out).1, (judge out).2, routing.tier, routing.carrier,
          routing.governed⟩)

structure LedgerReport where
  nClaims : Nat
  verdicts : List ClaimVerdict
  chainTier : Int
  chainReasons : List ChainReason
  admissible : Bool
  counts : Dict ClaimStatus Nat

def report (verdicts : List ClaimVerdict) : LedgerReport :=
  let decision := consultTierAlgebra (verdicts.map ClaimVerdict.carrier)
    (verdicts.map ClaimVerdict.tier) [] (some verdicts.length)
  let counts := verdicts.foldl (fun counts verdict => counts.add verdict.status 1) Dict.empty
  { nClaims := verdicts.length
    verdicts := verdicts
    chainTier := decision.tier
    chainReasons := decision.reasons
    admissible := !verdicts.isEmpty && (counts.lookup .verified).getD 0 = verdicts.length
    counts := counts }

def verifyAll (claims : List (EmittedClaim Value)) : Except AttemptError LedgerReport :=
  (claims.mapM (verdictOf catching router verifiers)).map report

end Verify

/-- One claim that is not verified sinks the set. -/
theorem admissible_iff (verdicts : List ClaimVerdict) :
    (report verdicts).admissible = true ↔
      verdicts ≠ [] ∧ ∀ verdict ∈ verdicts, verdict.status = .verified := by
  have counted := Dict.lookup_foldl_add ClaimVerdict.status (fun _ => 1) verdicts
    (Dict.empty : Dict ClaimStatus Nat) .verified
  have none : ((Dict.empty : Dict ClaimStatus Nat).lookup .verified).getD 0 = 0 := rfl
  rw [none, zero_add, List.map_const', List.sum_replicate, smul_eq_mul, mul_one] at counted
  simp only [report, counted, Bool.and_eq_true, Bool.not_eq_true', List.isEmpty_eq_false_iff,
    decide_eq_true_eq, List.length_filter_eq_length_iff]

section Verdicts

variable {catching : Catching Value} {router : TierRouter Value}
  {verifiers : VerifierRegistry Value}

/-- Tier, carrier and governance of a verdict are those of its routing. -/
theorem verdictOf_routed {claim : EmittedClaim Value} {verdict : ClaimVerdict}
    (answered : verdictOf catching router verifiers claim = .ok verdict) :
    verdict.carrier = (router.route claim.claimType).carrier ∧
      verdict.tier = (router.route claim.claimType).tier ∧
      verdict.governed = (router.route claim.claimType).governed := by
  unfold verdictOf at answered
  cases found : verifiers.verifiers.lookup claim.claimType with
  | none =>
      rw [found] at answered
      cases answered
      exact ⟨rfl, rfl, rfl⟩
  | some verifier =>
      rw [found] at answered
      obtain ⟨out, _, rfl⟩ := (Checks.map_ok_iff _ _ _).mp answered
      exact ⟨rfl, rfl, rfl⟩

theorem verifyAll_ok {claims : List (EmittedClaim Value)} {concluded : LedgerReport}
    (verified : verifyAll catching router verifiers claims = .ok concluded) :
    ∃ verdicts, List.Forall₂
        (fun claim verdict => verdictOf catching router verifiers claim = .ok verdict)
        claims verdicts ∧
      report verdicts = concluded := by
  obtain ⟨verdicts, each, same⟩ := (Checks.map_ok_iff _ _ _).mp verified
  exact ⟨verdicts, (Checks.mapM_ok_iff _ _ _).mp each, same⟩

/-- The stage that a claim adds to the chain. -/
def stageOf (router : TierRouter Value) (claimType : String) : Stage :=
  ((router.route claimType).carrier, (router.route claimType).tier)

theorem verdicts_stages {claims : List (EmittedClaim Value)} {verdicts : List ClaimVerdict}
    (answered : List.Forall₂
      (fun claim verdict => verdictOf catching router verifiers claim = .ok verdict)
      claims verdicts) :
    verdicts.map (fun verdict => (verdict.carrier, verdict.tier)) =
      claims.map (fun claim => stageOf router claim.claimType) := by
  induction answered with
  | nil => rfl
  | cons first _ ih =>
      obtain ⟨carrier, tier, _⟩ := verdictOf_routed first
      rw [List.map_cons, List.map_cons, ih, carrier, tier]
      rfl

theorem verifyAll_chainTier {claims : List (EmittedClaim Value)} {concluded : LedgerReport}
    (verified : verifyAll catching router verifiers claims = .ok concluded) :
    concluded.chainTier = chainTier (claims.map (fun claim => stageOf router claim.claimType)) := by
  obtain ⟨verdicts, answered, rfl⟩ := verifyAll_ok verified
  rw [← verdicts_stages answered, ← consult_tier _ [] (some verdicts.length), List.map_map,
    List.map_map]
  rfl

theorem emit_ok {claims longer : List (EmittedClaim Value)} {claimType : String}
    {verifyArgs : List Value} {verifyKwargs : Dict String Value}
    (emitted : emit claims claimType verifyArgs verifyKwargs = .ok longer) :
    ∃ claim : EmittedClaim Value, claim.claimType = claimType ∧ longer = claims ++ [claim] := by
  unfold emit at emitted
  split_ifs at emitted with typed
  cases emitted
  exact ⟨_, rfl, rfl⟩

theorem weakest_stage (claims : List (EmittedClaim Value)) (last : Stage) :
    (∃ stage ∈ claims.map (fun claim => stageOf router claim.claimType) ++ [last], stage.Weakest) ↔
      (∃ claim ∈ claims, (stageOf router claim.claimType).Weakest) ∨ last.Weakest := by
  constructor
  · rintro ⟨stage, member, weak⟩
    rcases List.mem_append.mp member with earlier | same
    · obtain ⟨claim, present, rfl⟩ := List.mem_map.mp earlier
      exact Or.inl ⟨claim, present, weak⟩
    · rw [List.mem_singleton.mp same] at weak
      exact Or.inr weak
  · rintro (⟨claim, present, weak⟩ | weak)
    · exact ⟨_, List.mem_append_left _ (List.mem_map_of_mem present), weak⟩
    · exact ⟨last, by simp, weak⟩

/-- The tier of a chain after one more claim. -/
theorem verifyAll_emit {claims longer : List (EmittedClaim Value)} {claimType : String}
    {verifyArgs : List Value} {verifyKwargs : Dict String Value} {before after : LedgerReport}
    (emitted : emit claims claimType verifyArgs verifyKwargs = .ok longer)
    (earlier : verifyAll catching router verifiers claims = .ok before)
    (later : verifyAll catching router verifiers longer = .ok after) :
    after.chainTier =
      if (∃ claim ∈ claims, (stageOf router claim.claimType).Weakest) ∨
          (stageOf router claimType).Weakest then 3
      else if claims = [] then (router.route claimType).tier
      else min before.chainTier (router.route claimType).tier := by
  obtain ⟨claim, rfl, rfl⟩ := emit_ok emitted
  have inserted := chainTier_insert (claims.map (fun claim => stageOf router claim.claimType))
    (stageOf router claim.claimType) []
  rw [List.append_nil] at inserted
  rw [verifyAll_chainTier later, verifyAll_chainTier earlier, List.map_append, List.map_cons,
    List.map_nil, inserted]
  exact if_congr (weakest_stage claims _) rfl (if_congr List.map_eq_nil_iff rfl rfl)

end Verdicts

/-- Which tier a chain gets, what a stage put anywhere into it makes of that, and what one more
claim makes of the chain tier of a report. -/
theorem chain_tier_rule (catching : Catching Value) (router : TierRouter Value)
    (verifiers : VerifierRegistry Value) :
    (∀ (stages : List Stage) (classes : List InvariantClass) (depth : Option Int),
      (consultTierAlgebra (stages.map Prod.fst) (stages.map Prod.snd) classes depth).tier =
        chainTier stages) ∧
    (∀ stages : List Stage,
      (Forced stages → chainTier stages = 3) ∧
      (¬Forced stages → IsLeast {tier | tier ∈ stages.map Prod.snd} (chainTier stages)) ∧
      ((∀ stage ∈ stages, stage.2 ≤ chainTier stages) ↔
        if Forced stages then ∀ stage ∈ stages, stage.2 ≤ 3
        else ∀ first ∈ stages, ∀ second ∈ stages, first.2 = second.2)) ∧
    (∀ (front : List Stage) (stage : Stage) (back : List Stage),
      chainTier (front ++ stage :: back) =
        if ∃ other ∈ front ++ stage :: back, other.Weakest then 3
        else if front ++ back = [] then stage.2
        else min (chainTier (front ++ back)) stage.2) ∧
    ∀ claims claimType verifyArgs verifyKwargs longer before after,
      emit claims claimType verifyArgs verifyKwargs = .ok longer →
      verifyAll catching router verifiers claims = .ok before →
      verifyAll catching router verifiers longer = .ok after →
      after.chainTier =
        if (∃ claim ∈ claims, (stageOf router claim.claimType).Weakest) ∨
            (stageOf router claimType).Weakest then 3
        else if claims = [] then (router.route claimType).tier
        else min before.chainTier (router.route claimType).tier := by
  refine ⟨consult_tier, ?_, chainTier_insert, ?_⟩
  · intro stages
    exact ⟨chainTier_of_forced, chainTier_isLeast, le_chainTier_iff stages⟩
  · intro claims claimType verifyArgs verifyKwargs longer before after emitted earlier later
    exact verifyAll_emit emitted earlier later

/-- A proof stage put behind a spec stage makes the chain stronger. -/
theorem chain_tier_improves :
    (¬∀ stages : List Stage, ∀ stage ∈ stages,
      stage.2 ≤ (consultTierAlgebra (stages.map Prod.fst) (stages.map Prod.snd) [] none).tier) ∧
    ¬∀ (stages : List Stage) (stage : Stage),
      (consultTierAlgebra (stages.map Prod.fst) (stages.map Prod.snd) [] none).tier ≤
        (consultTierAlgebra ((stages ++ [stage]).map Prod.fst) ((stages ++ [stage]).map Prod.snd)
          [] none).tier := by
  constructor
  · intro weakest
    exact absurd (weakest [("SPEC", 2), ("PROOF", 1)] ("SPEC", 2) (by simp)) (by decide)
  · intro monotone
    exact absurd (monotone [("SPEC", 2)] ("PROOF", 1)) (by decide)

/-! Governed verdicts. -/

/-- The status that a verifier's answer gives a claim. -/
def statusOf (answer : Bool) : ClaimStatus := if answer then .verified else .refuted

/-- A governed status is the answer of the attested function, and a claim type that the
authority holds does not lack a verifier. -/
structure GovernedSound (authority : SpecAuthority Value) (claim : EmittedClaim Value)
    (verdict : ClaimVerdict) : Prop where
  attested : ∀ answer, verdict.governed = true → verdict.status = statusOf answer →
    ∃ rec, authority.records.lookup claim.claimType = some rec ∧
      rec.fn.call claim.verifyArgs claim.verifyKwargs = .bool answer
  evaluated : claim.claimType ∈ authority.records.keys → verdict.detail ≠ .noVerifier

/-- The recheck raises out of `verify_all`. -/
def Escapes (catching : Catching Value) (fn : PyFunction Value) (claim : EmittedClaim Value) :
    Prop :=
  "fn" ∈ claim.verifyKwargs.keys ∨ "where" ∈ claim.verifyKwargs.keys ∨
    ∃ reason, fn.call claim.verifyArgs (claim.verifyKwargs.pop "catching") = .raises reason ∧
      catching (claim.verifyKwargs.lookup "catching") reason = false

/-- A claim type that the authority holds has a verifier, and whatever that one answers to the
claim, the attested function answers. -/
def Agrees (authority : SpecAuthority Value) (verifiers : VerifierRegistry Value)
    (claim : EmittedClaim Value) : Prop :=
  ∀ rec, authority.records.lookup claim.claimType = some rec →
    ∃ verifier, verifiers.verifiers.lookup claim.claimType = some verifier ∧
      ∀ answer,
        verifier.fn.call claim.verifyArgs (claim.verifyKwargs.pop "catching") = .bool answer →
          rec.fn.call claim.verifyArgs claim.verifyKwargs = .bool answer

theorem attempt_answers_iff (catching : Catching Value) (fn : PyFunction Value)
    (claim : EmittedClaim Value) :
    Answers (attempt catching fn claim) ↔ ¬Escapes catching fn claim := by
  unfold attempt Escapes
  split_ifs with reserved
  · simp only [Checks.not_answers_error, false_iff, not_not]
    tauto
  · rw [not_or] at reserved
    cases called : fn.call claim.verifyArgs (claim.verifyKwargs.pop "catching") with
    | raises reason =>
        by_cases caught : catching (claim.verifyKwargs.lookup "catching") reason = true
        · simp [reserved, caught]
        · simp [reserved, caught]
    | bool value => simp [reserved]
    | failure reason => simp [reserved]
    | other typeName => simp [reserved]

/-- The status of an attempt that comes to something: the function's own answer, if it is one. -/
theorem attempt_status {catching : Catching Value} {fn : PyFunction Value}
    {claim : EmittedClaim Value} {out : Outcome} (done : attempt catching fn claim = .ok out)
    (answer : Bool) :
    (judge out).1 = statusOf answer ↔
      fn.call claim.verifyArgs (claim.verifyKwargs.pop "catching") = .bool answer := by
  unfold attempt at done
  split_ifs at done
  cases called : fn.call claim.verifyArgs (claim.verifyKwargs.pop "catching") with
  | raises reason =>
      simp only [called] at done
      split_ifs at done
      cases done
      cases answer <;> simp [judge, statusOf]
  | bool value =>
      simp only [called] at done
      cases done
      cases value <;> cases answer <;> simp [judge, statusOf]
  | failure reason =>
      simp only [called] at done
      cases done
      cases answer <;> simp [judge, statusOf]
  | other typeName =>
      simp only [called] at done
      cases done
      cases answer <;> simp [judge, statusOf]

theorem judge_detail (out : Outcome) : (judge out).2 ≠ .noVerifier := by
  rcases out with reason | value | reason | typeName
  · simp [judge]
  · cases value <;> simp [judge]
  · simp [judge]
  · simp [judge]

section Governed

variable {catching : Catching Value} {legacy verifiers : VerifierRegistry Value}
  {specs : PartialSpecRegistry Value} {authority : SpecAuthority Value} {policy : CutoverPolicy}

theorem route_governed_iff (claimType : String) :
    (TierRouter.route ⟨legacy, specs, some (authority, policy)⟩ claimType).governed = true ↔
      ∃ rec, authority.records.lookup claimType = some rec := by
  cases held : authority.records.lookup claimType with
  | some rec => simp [TierRouter.route, held]
  | none =>
      simp only [TierRouter.route, held]
      split_ifs
      · simp
      · simp

theorem verdictOf_answers_iff (router : TierRouter Value) (claim : EmittedClaim Value) :
    Answers (verdictOf catching router verifiers claim) ↔
      ∀ verifier, verifiers.verifiers.lookup claim.claimType = some verifier →
        ¬Escapes catching verifier.fn claim := by
  unfold verdictOf
  cases found : verifiers.verifiers.lookup claim.claimType with
  | none => simp
  | some verifier => simp [attempt_answers_iff]

theorem governedSound_iff {claim : EmittedClaim Value} {verdict : ClaimVerdict}
    (answered : verdictOf catching ⟨legacy, specs, some (authority, policy)⟩ verifiers claim =
      .ok verdict) :
    GovernedSound authority claim verdict ↔ Agrees authority verifiers claim := by
  obtain ⟨_, _, routed⟩ := verdictOf_routed answered
  rw [Bool.eq_iff_iff, route_governed_iff] at routed
  unfold verdictOf at answered
  cases found : verifiers.verifiers.lookup claim.claimType with
  | none =>
      rw [found] at answered
      cases answered
      constructor
      · intro sound rec held
        exact absurd rfl (sound.evaluated ((Dict.mem_keys _ _).mpr ⟨rec, held⟩))
      · intro agrees
        have unheld : ∀ rec, authority.records.lookup claim.claimType ≠ some rec := by
          intro rec held
          obtain ⟨verifier, present, _⟩ := agrees rec held
          rw [found] at present
          cases present
        constructor
        · intro answer governed
          obtain ⟨rec, held⟩ := routed.mp governed
          exact absurd held (unheld rec)
        · intro known
          obtain ⟨rec, held⟩ := (Dict.mem_keys _ _).mp known
          exact absurd held (unheld rec)
  | some verifier =>
      rw [found] at answered
      obtain ⟨out, done, rfl⟩ := (Checks.map_ok_iff _ _ _).mp answered
      constructor
      · intro sound rec held
        refine ⟨verifier, found, ?_⟩
        intro answer called
        obtain ⟨other, same, agreed⟩ := sound.attested answer (routed.mpr ⟨rec, held⟩)
          ((attempt_status done answer).mpr called)
        rw [held] at same
        cases same
        exact agreed
      · intro agrees
        constructor
        · intro answer governed status
          obtain ⟨rec, held⟩ := routed.mp governed
          obtain ⟨other, same, agreed⟩ := agrees rec held
          rw [found] at same
          cases same
          exact ⟨rec, held, agreed answer ((attempt_status done answer).mp status)⟩
        · intro _
          exact judge_detail out

theorem governedSound_all_iff {claims : List (EmittedClaim Value)} {verdicts : List ClaimVerdict}
    (answered : List.Forall₂ (fun claim verdict =>
      verdictOf catching ⟨legacy, specs, some (authority, policy)⟩ verifiers claim = .ok verdict)
      claims verdicts) :
    List.Forall₂ (GovernedSound authority) claims verdicts ↔
      ∀ claim ∈ claims, Agrees authority verifiers claim := by
  induction answered with
  | nil => simp
  | cons first _ ih => rw [List.forall₂_cons, List.forall_mem_cons, governedSound_iff first, ih]

theorem verifyAll_answers_iff (router : TierRouter Value) (claims : List (EmittedClaim Value)) :
    Answers (verifyAll catching router verifiers claims) ↔
      ∀ claim ∈ claims, ∀ verifier, verifiers.verifiers.lookup claim.claimType = some verifier →
        ¬Escapes catching verifier.fn claim := by
  simp only [verifyAll, Checks.answers_map, Checks.answers_mapM, verdictOf_answers_iff]

end Governed

/-- Every governed verdict is the attested function's exactly if the registry that is run
agrees with the authority on every claim, or some recheck raises and there is no report. -/
theorem governed_verdicts_iff (catching : Catching Value)
    (legacy verifiers : VerifierRegistry Value) (specs : PartialSpecRegistry Value)
    (authority : SpecAuthority Value) (policy : CutoverPolicy)
    (claims : List (EmittedClaim Value)) :
    (∀ concluded, verifyAll catching ⟨legacy, specs, some (authority, policy)⟩ verifiers claims =
        .ok concluded → List.Forall₂ (GovernedSound authority) claims concluded.verdicts) ↔
      (∃ claim ∈ claims, ∃ verifier,
        verifiers.verifiers.lookup claim.claimType = some verifier ∧
          Escapes catching verifier.fn claim) ∨
        ∀ claim ∈ claims, Agrees authority verifiers claim := by
  have silent : ¬Answers (verifyAll catching ⟨legacy, specs, some (authority, policy)⟩ verifiers
      claims) ↔ ∃ claim ∈ claims, ∃ verifier,
        verifiers.verifiers.lookup claim.claimType = some verifier ∧
          Escapes catching verifier.fn claim := by
    rw [verifyAll_answers_iff]
    push Not
    rfl
  rw [← silent]
  by_cases answers : Answers (verifyAll catching ⟨legacy, specs, some (authority, policy)⟩ verifiers
    claims)
  · obtain ⟨concluded, verified⟩ := answers
    obtain ⟨verdicts, answered, rfl⟩ := verifyAll_ok verified
    simp only [verified, Except.ok.injEq, forall_eq', Checks.answers_ok, not_true_eq_false,
      false_or]
    exact governedSound_all_iff answered
  · simp only [answers, not_false_eq_true, true_or, iff_true]
    intro concluded verified
    exact absurd ⟨concluded, verified⟩ answers

namespace Sample

def attested : SpecRecord Unit :=
  { specRecord (constant (.bool false)) with
    witness := "blake3"
    witness_stated := by decide }

def authority : SpecAuthority Unit :=
  (register Gyza.Sample.crypto pyText {} ⟨some attested, none, .missing⟩).1

theorem authority_held : authority.records.lookup "content_address" = some attested := by
  have vetted : vet Gyza.Sample.crypto (⟨Dict.empty, []⟩ : SpecAuthority Unit) attested none =
      .ok () := by decide +kernel
  have resolves : checkWitnessResolves pyText .missing attested.witness =
      .ok (.nonFile attested.witness) := by decide +kernel
  simp only [authority, register, vetted, resolves]
  rfl

/-- Another function under the same claim type. -/
def verifier : Verifier Unit :=
  ⟨"content_address", constant (.bool true), "blake3", .proof, by decide⟩

theorem verifier_witnessed : verifier.witness ≠ "" := by decide

def registry : VerifierRegistry Unit :=
  ⟨Dict.empty.set "content_address" verifier,
    VerifierRegistry.empty.cited_set verifier verifier_witnessed⟩

def claim : EmittedClaim Unit := ⟨"content_address", [()], Dict.empty, by decide⟩

def catchAll : Catching Unit := fun _ _ => true

end Sample

/-- The attested function answers false, and the governed verdict is that the claim is verified. -/
theorem governed_by_another_check :
    ¬∀ concluded, verifyAll Sample.catchAll
        ⟨Sample.registry, .empty, some (Sample.authority, .failClosed)⟩ Sample.registry
          [Sample.claim] = .ok concluded →
      List.Forall₂ (GovernedSound Sample.authority) [Sample.claim] concluded.verdicts := by
  intro sound
  have rechecked : ∀ claim ∈ [Sample.claim], ∀ verifier,
      Sample.registry.verifiers.lookup claim.claimType = some verifier →
        ¬Escapes Sample.catchAll verifier.fn claim := by
    rw [List.forall_mem_singleton]
    intro verifier found
    have same : some Sample.verifier = some verifier := found
    cases same
    rintro (reserved | reserved | ⟨reason, raised, _⟩)
    · exact absurd reserved (by decide)
    · exact absurd reserved (by decide)
    · cases raised
  obtain ⟨concluded, verified⟩ := (verifyAll_answers_iff
    ⟨Sample.registry, .empty, some (Sample.authority, .failClosed)⟩ [Sample.claim]).mpr rechecked
  have governed := sound concluded verified
  obtain ⟨verdicts, answered, rfl⟩ := verifyAll_ok verified
  obtain ⟨verifier, found, agreed⟩ := (governedSound_all_iff answered).mp governed Sample.claim
    (by simp) Sample.attested Sample.authority_held
  have same : some Sample.verifier = some verifier := found
  cases same
  cases agreed true rfl

end Gyza.Verification

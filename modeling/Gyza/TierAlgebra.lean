import Mathlib.Tactic
import Gyza.Staging

/-! The tier algebra (`gyza/verification/scheduler.py`).

Tier 1 is the strongest and tier 3 the weakest. A chain is tier 3 when a stage forces it to
be; otherwise it gets the least of its tiers, the number of its strongest stage. -/

namespace Gyza.Verification

open Staging (InvariantClass)

inductive ChainReason where
  | testCarried
  | tierThree
  | combined (tier : Int)
  | cumulative
  | tooDeep (depth : Int) (cap : Nat)
  deriving DecidableEq

structure ChainDecision where
  tier : Int
  reasons : List ChainReason := []
  requiresPromotionGate : Bool := false
  depthPermitted : Bool := true
  deriving DecidableEq

/-- `CARRIER_DEPTH_CAP.get(carrier, 10)`. -/
def carrierDepthCap (carrier : String) : Option Nat :=
  if carrier = "PROOF" ∨ carrier = "SPEC" then none else some 10

/-- The tightest cap that a stage imposes. -/
def depthCap (carriers : List String) : Option Nat := (carriers.filterMap carrierDepthCap).min?

def combine (carriers : List String) (tiers : List Int) : ChainDecision :=
  if "TEST" ∈ carriers then ⟨3, [.testCarried], false, true⟩
  else if 3 ∈ tiers then ⟨3, [.tierThree], false, true⟩
  else
    let tier := tiers.min?.getD 3
    ⟨tier, [.combined tier], false, true⟩

def askPromotionGate (classes : List InvariantClass) (decision : ChainDecision) : ChainDecision :=
  if .cumulative ∈ classes then
    { decision with
      requiresPromotionGate := true
      reasons := decision.reasons ++ [.cumulative] }
  else decision

def capDepth (carriers : List String) (depth : Option Int) (decision : ChainDecision) :
    ChainDecision :=
  match depth, depthCap carriers with
  | some depth, some cap =>
      if (cap : Int) < depth then
        { decision with
          depthPermitted := false
          reasons := decision.reasons ++ [.tooDeep depth cap] }
      else decision
  | _, _ => decision

def consultTierAlgebra (carriers : List String) (tiers : List Int) (classes : List InvariantClass)
    (depth : Option Int) : ChainDecision :=
  capDepth carriers depth (askPromotionGate classes (combine carriers tiers))

@[simp] theorem askPromotionGate_tier (classes : List InvariantClass) (decision : ChainDecision) :
    (askPromotionGate classes decision).tier = decision.tier := by
  unfold askPromotionGate
  split_ifs
  · rfl
  · rfl

@[simp] theorem capDepth_tier (carriers : List String) (depth : Option Int)
    (decision : ChainDecision) : (capDepth carriers depth decision).tier = decision.tier := by
  unfold capDepth
  split
  · split_ifs
    · rfl
    · rfl
  · rfl

theorem depthCap_eq_some (carriers : List String) (cap : Nat) :
    depthCap carriers = some cap ↔
      cap = 10 ∧ ∃ carrier ∈ carriers, carrier ≠ "PROOF" ∧ carrier ≠ "SPEC" := by
  have tens : ∀ bound ∈ carriers.filterMap carrierDepthCap, bound = 10 := by
    intro bound member
    rcases List.mem_filterMap.mp member with ⟨carrier, _, capped⟩
    unfold carrierDepthCap at capped
    split_ifs at capped
    exact (Option.some.inj capped).symm
  have decays (carrier : String) :
      carrierDepthCap carrier = some 10 ↔ carrier ≠ "PROOF" ∧ carrier ≠ "SPEC" := by
    unfold carrierDepthCap
    split_ifs with sound
    · simp only [false_iff]
      tauto
    · simpa using sound
  rw [depthCap, List.min?_eq_some_iff, List.mem_filterMap]
  constructor
  · rintro ⟨⟨carrier, member, capped⟩, _⟩
    have ten := tens cap (List.mem_filterMap.mpr ⟨carrier, member, capped⟩)
    rw [ten] at capped
    exact ⟨ten, carrier, member, (decays carrier).mp capped⟩
  · rintro ⟨rfl, carrier, member, decaying⟩
    exact ⟨⟨carrier, member, (decays carrier).mpr decaying⟩, fun bound listed =>
      (tens bound listed).ge⟩

theorem depthPermitted_before (carriers : List String) (tiers : List Int)
    (classes : List InvariantClass) :
    (askPromotionGate classes (combine carriers tiers)).depthPermitted = true := by
  unfold askPromotionGate combine
  split_ifs
  all_goals rfl

/-- A chain of proofs and specs is as deep as it is asked to be; any other stops at ten. -/
theorem depthPermitted_iff (carriers : List String) (tiers : List Int)
    (classes : List InvariantClass) (depth : Option Int) :
    (consultTierAlgebra carriers tiers classes depth).depthPermitted = true ↔
      ∀ asked, depth = some asked → 10 < asked →
        ∀ carrier ∈ carriers, carrier = "PROOF" ∨ carrier = "SPEC" := by
  have uncapped : (∀ cap, depthCap carriers ≠ some cap) ↔
      ∀ carrier ∈ carriers, carrier = "PROOF" ∨ carrier = "SPEC" := by
    simp only [ne_eq, depthCap_eq_some, not_and, not_exists, forall_eq]
    exact forall₂_congr fun carrier _ => by tauto
  rw [consultTierAlgebra, ← uncapped]
  have before := depthPermitted_before carriers tiers classes
  cases depth with
  | none => simpa [capDepth] using before
  | some asked =>
      cases capped : depthCap carriers with
      | none => simpa [capDepth, capped] using before
      | some cap =>
          have ten := ((depthCap_eq_some carriers cap).mp capped).1
          subst ten
          simp only [capDepth, capped]
          split_ifs with deep
          · have : (10 : Int) < asked := by exact_mod_cast deep
            simp [this]
          · have : asked ≤ 10 := by exact_mod_cast not_lt.mp deep
            simp [before, this]

/-- A stage: what its check rests on, and its tier. -/
abbrev Stage := String × Int

/-- A stage that makes its chain tier 3. -/
def Stage.Weakest (stage : Stage) : Prop := stage.1 = "TEST" ∨ stage.2 = 3

instance (stage : Stage) : Decidable stage.Weakest := by
  unfold Stage.Weakest
  infer_instance

/-- The chains that are tier 3 whatever else is in them. -/
def Forced (stages : List Stage) : Prop := stages = [] ∨ ∃ stage ∈ stages, stage.Weakest

instance (stages : List Stage) : Decidable (Forced stages) := by
  unfold Forced
  infer_instance

/-- The tier that the algebra gives a chain, whatever the classes and the depth. -/
def chainTier (stages : List Stage) : Int :=
  (combine (stages.map Prod.fst) (stages.map Prod.snd)).tier

theorem consult_tier (stages : List Stage) (classes : List InvariantClass) (depth : Option Int) :
    (consultTierAlgebra (stages.map Prod.fst) (stages.map Prod.snd) classes depth).tier =
      chainTier stages := by
  simp only [consultTierAlgebra, capDepth_tier, askPromotionGate_tier, chainTier]

theorem chainTier_of_forced {stages : List Stage} (forced : Forced stages) :
    chainTier stages = 3 := by
  rcases forced with empty | ⟨stage, member, carried | tier⟩
  · rw [empty]
    rfl
  · have present : "TEST" ∈ stages.map Prod.fst := List.mem_map.mpr ⟨stage, member, carried⟩
    simp only [chainTier, combine, if_pos present]
  · have present : 3 ∈ stages.map Prod.snd := List.mem_map.mpr ⟨stage, member, tier⟩
    unfold chainTier combine
    split_ifs
    · rfl
    · rfl

/-- Every other chain gets the least of its tiers. -/
theorem chainTier_isLeast {stages : List Stage} (free : ¬Forced stages) :
    IsLeast {tier | tier ∈ stages.map Prod.snd} (chainTier stages) := by
  have untested : "TEST" ∉ stages.map Prod.fst := by
    intro present
    rcases List.mem_map.mp present with ⟨stage, member, carried⟩
    exact free (Or.inr ⟨stage, member, Or.inl carried⟩)
  have strong : (3 : Int) ∉ stages.map Prod.snd := by
    intro present
    rcases List.mem_map.mp present with ⟨stage, member, tier⟩
    exact free (Or.inr ⟨stage, member, Or.inr tier⟩)
  have inhabited : stages.map Prod.snd ≠ [] := by
    intro none
    exact free (Or.inl (List.map_eq_nil_iff.mp none))
  obtain ⟨least, found⟩ := Option.isSome_iff_exists.mp (List.isSome_min?_of_ne_nil inhabited)
  have tier : chainTier stages = least := by
    simp only [chainTier, combine, if_neg untested, if_neg strong, found, Option.getD_some]
  rw [tier]
  exact List.min?_eq_some_iff.mp found

/-- A chain is no stronger than any of its stages only when it is forced down, or when its
stages are all of one tier. -/
theorem le_chainTier_iff (stages : List Stage) :
    (∀ stage ∈ stages, stage.2 ≤ chainTier stages) ↔
      if Forced stages then ∀ stage ∈ stages, stage.2 ≤ 3
      else ∀ first ∈ stages, ∀ second ∈ stages, first.2 = second.2 := by
  by_cases forced : Forced stages
  · rw [if_pos forced, chainTier_of_forced forced]
  · rw [if_neg forced]
    have least := chainTier_isLeast forced
    have below : ∀ stage ∈ stages, chainTier stages ≤ stage.2 := fun stage member =>
      least.2 (List.mem_map_of_mem member)
    constructor
    · intro weakest first one second two
      have := weakest first one
      have := weakest second two
      have := below first one
      have := below second two
      omega
    · intro same stage member
      rcases List.mem_map.mp least.1 with ⟨strongest, present, tier⟩
      rw [← tier]
      exact le_of_eq (same stage member strongest present)

/-- One more stage, anywhere in a chain. -/
theorem chainTier_insert (front : List Stage) (stage : Stage) (back : List Stage) :
    chainTier (front ++ stage :: back) =
      if ∃ other ∈ front ++ stage :: back, other.Weakest then 3
      else if front ++ back = [] then stage.2
      else min (chainTier (front ++ back)) stage.2 := by
  have members : {tier | tier ∈ (front ++ stage :: back).map Prod.snd} =
      insert stage.2 {tier | tier ∈ (front ++ back).map Prod.snd} := by
    ext tier
    simp only [List.map_append, List.map_cons, List.mem_append, List.mem_cons, Set.mem_ofPred_eq,
      Set.mem_insert_iff]
    tauto
  have free (strong : ¬∃ other ∈ front ++ stage :: back, other.Weakest) :
      ¬Forced (front ++ stage :: back) := by
    rintro (none | weak)
    · simp at none
    · exact strong weak
  split_ifs with weakest alone
  · exact chainTier_of_forced (Or.inr weakest)
  · have least := chainTier_isLeast (free weakest)
    rw [members, alone] at least
    simpa using least.1
  · have rest : ¬Forced (front ++ back) := by
      rintro (empty | ⟨other, member, weak⟩)
      · exact alone empty
      · refine weakest ⟨other, ?_, weak⟩
        rcases List.mem_append.mp member with before | after
        · exact List.mem_append_left _ before
        · exact List.mem_append_right _ (List.mem_cons_of_mem _ after)
    have least := chainTier_isLeast (free weakest)
    rw [members] at least
    rw [min_comm]
    exact least.unique ((chainTier_isLeast rest).insert stage.2)

end Gyza.Verification

import Mathlib.Data.Finset.Sort
import Mathlib.Data.String.Basic
import Mathlib.Order.WithBot
import Mathlib.Tactic

/-! Compositional boundedness of delegation chains (`gyza/economy/delegation.py`). -/

namespace Gyza

/-- A missing cap is "no cap declared". -/
@[ext] structure CapabilitySpec where
  ro : Finset String := ∅
  rw : Finset String := ∅
  network : Bool := false
  memCap : Option Int := none
  rateCap : Option Int := none
  deriving DecidableEq

inductive CapFault where
  | undeclared (granted : Int)
  | exceeds (declared granted : Int)
  deriving DecidableEq

inductive SubsetFault where
  | readPaths (beyond : List String)
  | writePaths (beyond : List String)
  | network
  | memory (fault : CapFault)
  | rate (fault : CapFault)
  deriving DecidableEq

/-- The check of one optional cap: what `outer` caps, `inner` must cap no higher. -/
def checkCap (inner outer : Option Int) : Except CapFault Unit :=
  match outer with
  | none => .ok ()
  | some granted =>
      match inner with
      | none => .error (.undeclared granted)
      | some declared => if granted < declared then .error (.exceeds declared granted) else .ok ()

/-- `sorted(inner - outer)`. -/
def pathsBeyond (inner outer : Finset String) : List String := (inner \ outer).sort (· ≤ ·)

/-- `sorted(texts)`. -/
abbrev sortedTexts (texts : Finset String) : List String := texts.sort (· ≤ ·)

def capabilitySubset (inner outer : CapabilitySpec) : Except SubsetFault Unit :=
  if ¬inner.ro ⊆ outer.ro then .error (.readPaths (pathsBeyond inner.ro outer.ro))
  else if ¬inner.rw ⊆ outer.rw then .error (.writePaths (pathsBeyond inner.rw outer.rw))
  else if inner.network ∧ ¬outer.network then .error .network
  else
    match checkCap inner.memCap outer.memCap with
    | .error fault => .error (.memory fault)
    | .ok () =>
        match checkCap inner.rateCap outer.rateCap with
        | .error fault => .error (.rate fault)
        | .ok () => .ok ()

/-- One node of a chain, root first; the root is granted nothing. -/
structure DelegationHop where
  agentPubkey : String
  manifest : CapabilitySpec
  enforcement : CapabilitySpec
  delegated : Option CapabilitySpec := none

inductive DelegationFault where
  | emptyChain
  | tooDeep (length : Nat) (maxDepth : Int)
  | cycle (pubkeyPrefix : List Char)
  | enforcementExceeds (hop : Nat) (why : SubsetFault)
  | rootDelegated
  | missingGrant (hop : Nat)
  | manifestExceeds (hop : Nat) (why : SubsetFault)
  | parentExceeds (hop : Nat) (why : SubsetFault)
  deriving DecidableEq

def maxDelegationDepth : Int := 3

/-- The loop of `verify_delegation` from index `i`, after the hop `prev`. -/
def verifyHops (seen : Finset String) (prev : Option DelegationHop) (i : Nat) :
    List DelegationHop → Except DelegationFault Unit
  | [] => .ok ()
  | h :: rest =>
      if h.agentPubkey ∈ seen then .error (.cycle (h.agentPubkey.toList.take 16))
      else
        match capabilitySubset h.enforcement h.manifest with
        | .error why => .error (.enforcementExceeds i why)
        | .ok () =>
            match prev with
            -- `i == 0`
            | none =>
                if h.delegated.isSome then .error .rootDelegated
                else verifyHops (insert h.agentPubkey seen) (some h) (i + 1) rest
            | some parent =>
                match h.delegated with
                | none => .error (.missingGrant i)
                | some delegated =>
                    match capabilitySubset h.manifest delegated with
                    | .error why => .error (.manifestExceeds i why)
                    | .ok () =>
                        match capabilitySubset delegated parent.manifest with
                        | .error why => .error (.parentExceeds i why)
                        | .ok () => verifyHops (insert h.agentPubkey seen) (some h) (i + 1) rest

def verifyDelegation (chain : List DelegationHop) (maxDepth : Int := maxDelegationDepth) :
    Except DelegationFault Unit :=
  match chain with
  | [] => .error .emptyChain
  | _ =>
      if maxDepth < chain.length then .error (.tooDeep chain.length maxDepth)
      else verifyHops ∅ none 0 chain

/-! The order of authority: sets of paths by inclusion, and caps with none at the top. -/

/-- A cap as a bound: no cap is above every cap. -/
def capBound : Option Int → WithTop Int
  | none => ⊤
  | some cap => cap

theorem capBound_injective : Function.Injective capBound := by
  intro left right same
  cases left <;> cases right <;> simp_all [capBound]

theorem checkCap_ok (inner outer : Option Int) :
    checkCap inner outer = .ok () ↔ capBound inner ≤ capBound outer := by
  cases outer with
  | none => simp [checkCap, capBound]
  | some granted =>
      cases inner with
      | none => simp [checkCap, capBound]
      | some declared => simp [checkCap, capBound]

/-- What a bound on `outer` says about `inner`. -/
theorem capBound_le_some {inner : Option Int} {cap : Int} (le : capBound inner ≤ capBound (some cap)) :
    ∃ own, inner = some own ∧ own ≤ cap := by
  cases inner with
  | none => simp [capBound] at le
  | some own => exact ⟨own, rfl, by simpa [capBound] using le⟩

namespace CapabilitySpec

def authority (spec : CapabilitySpec) :
    Finset String × Finset String × Bool × WithTop Int × WithTop Int :=
  (spec.ro, spec.rw, spec.network, capBound spec.memCap, capBound spec.rateCap)

theorem authority_injective : Function.Injective authority := by
  intro left right same
  simp only [authority, Prod.mk.injEq] at same
  rcases same with ⟨ro, rw', network, memory, rate⟩
  exact CapabilitySpec.ext ro rw' network (capBound_injective memory) (capBound_injective rate)

noncomputable instance : PartialOrder CapabilitySpec := PartialOrder.lift authority authority_injective

theorem le_iff {inner outer : CapabilitySpec} :
    inner ≤ outer ↔ inner.ro ⊆ outer.ro ∧ inner.rw ⊆ outer.rw ∧ inner.network ≤ outer.network ∧
      capBound inner.memCap ≤ capBound outer.memCap ∧
        capBound inner.rateCap ≤ capBound outer.rateCap := Iff.rfl

end CapabilitySpec

/-- The predicate of the source decides the order of authority. -/
theorem capabilitySubset_ok (inner outer : CapabilitySpec) :
    capabilitySubset inner outer = .ok () ↔ inner ≤ outer := by
  rw [CapabilitySpec.le_iff, ← checkCap_ok, ← checkCap_ok]
  have network : inner.network ≤ outer.network ↔
      ¬(inner.network = true ∧ ¬outer.network = true) := by
    cases inner.network <;> cases outer.network <;> decide
  rw [network, capabilitySubset]
  split_ifs with reads writes opens
  · simp [opens]
  · cases memory : checkCap inner.memCap outer.memCap with
    | error fault => simp
    | ok =>
        cases rate : checkCap inner.rateCap outer.rateCap with
        | error fault => simp
        | ok =>
            simp only [reads, writes, true_and, and_true, true_iff]
            exact opens
  · simp [writes]
  · simp [reads]

/-! What an accepted chain satisfies, hop by hop. -/

/-- What `verify_delegation` checks of a hop after `prev`. -/
structure HopBounded (prev : Option DelegationHop) (h : DelegationHop) : Prop where
  enforcement : h.enforcement ≤ h.manifest
  manifest : ∀ parent ∈ prev, h.manifest ≤ parent.manifest

theorem verifyHops_cons {seen : Finset String} {prev : Option DelegationHop} {i : Nat}
    {h : DelegationHop} {rest : List DelegationHop}
    (accepted : verifyHops seen prev i (h :: rest) = .ok ()) :
    h.agentPubkey ∉ seen ∧ HopBounded prev h ∧
      verifyHops (insert h.agentPubkey seen) (some h) (i + 1) rest = .ok () := by
  unfold verifyHops at accepted
  split at accepted
  · cases accepted
  rename_i known
  refine ⟨known, ?_⟩
  split at accepted
  · cases accepted
  rename_i contained
  have enforcement := (capabilitySubset_ok _ _).mp contained
  split at accepted
  · split_ifs at accepted
    exact ⟨⟨enforcement, by simp⟩, accepted⟩
  · rename_i parent
    split at accepted
    · cases accepted
    rename_i delegated granted
    split at accepted
    · cases accepted
    rename_i inside
    split at accepted
    · cases accepted
    rename_i held
    have narrowed : h.manifest ≤ parent.manifest :=
      le_trans ((capabilitySubset_ok _ _).mp inside) ((capabilitySubset_ok _ _).mp held)
    exact ⟨⟨enforcement, by simpa using narrowed⟩, accepted⟩

/-- The loop's invariant: hops narrow from `prev` on, and no key comes back. -/
structure Narrowing (seen : Finset String) (prev : Option DelegationHop)
    (hops : List DelegationHop) : Prop where
  enforcement : ∀ h ∈ hops, h.enforcement ≤ h.manifest
  below : ∀ parent ∈ prev, ∀ h ∈ hops, h.manifest ≤ parent.manifest
  pairwise : hops.Pairwise (fun earlier later => later.manifest ≤ earlier.manifest)
  fresh : ∀ h ∈ hops, h.agentPubkey ∉ seen
  distinct : (hops.map DelegationHop.agentPubkey).Nodup

theorem verifyHops_narrowing (hops : List DelegationHop) :
    ∀ (seen : Finset String) (prev : Option DelegationHop) (i : Nat),
      verifyHops seen prev i hops = .ok () → Narrowing seen prev hops := by
  induction hops with
  | nil =>
      intro seen prev i _
      exact ⟨by simp, by simp, by simp, by simp, by simp⟩
  | cons h rest ih =>
      intro seen prev i accepted
      rcases verifyHops_cons accepted with ⟨known, bounded, remaining⟩
      have tail := ih _ _ _ remaining
      have beneath : ∀ later ∈ rest, later.manifest ≤ h.manifest := tail.below h rfl
      constructor
      · intro later member
        rcases List.mem_cons.mp member with rfl | member
        · exact bounded.enforcement
        · exact tail.enforcement later member
      · intro parent above later member
        rcases List.mem_cons.mp member with rfl | member
        · exact bounded.manifest parent above
        · exact le_trans (beneath later member) (bounded.manifest parent above)
      · exact List.pairwise_cons.mpr ⟨beneath, tail.pairwise⟩
      · intro later member
        rcases List.mem_cons.mp member with rfl | member
        · exact known
        · exact fun seenBefore => tail.fresh later member (Finset.mem_insert_of_mem seenBefore)
      · rw [List.map_cons, List.nodup_cons]
        refine ⟨?_, tail.distinct⟩
        intro again
        rcases List.mem_map.mp again with ⟨later, member, same⟩
        exact tail.fresh later member (same ▸ Finset.mem_insert_self _ _)

theorem verifyDelegation_ok {chain : List DelegationHop} {maxDepth : Int}
    (accepted : verifyDelegation chain maxDepth = .ok ()) :
    chain ≠ [] ∧ (chain.length : Int) ≤ maxDepth ∧ Narrowing ∅ none chain := by
  cases chain with
  | nil => cases accepted
  | cons h rest =>
      simp only [verifyDelegation] at accepted
      split_ifs at accepted with deep
      exact ⟨by simp, not_lt.mp deep, verifyHops_narrowing _ _ _ _ accepted⟩

/-- Every later hop of an accepted chain is within the manifest of every earlier one. -/
theorem later_within {chain : List DelegationHop} (narrowing : Narrowing ∅ none chain) {i j : Nat}
    (order : i ≤ j) {earlier later : DelegationHop} (first : chain[i]? = some earlier)
    (second : chain[j]? = some later) :
    later.manifest ≤ earlier.manifest ∧ later.enforcement ≤ earlier.manifest := by
  rcases List.getElem?_eq_some_iff.mp first with ⟨inside, found⟩
  rcases List.getElem?_eq_some_iff.mp second with ⟨inside', found'⟩
  have manifests : later.manifest ≤ earlier.manifest := by
    rcases Nat.lt_or_eq_of_le order with before | rfl
    · have narrowed := List.pairwise_iff_getElem.mp narrowing.pairwise i j inside inside' before
      rwa [found, found'] at narrowed
    · rw [← found, ← found']
  have own : later.enforcement ≤ later.manifest :=
    narrowing.enforcement later (List.mem_of_getElem? second)
  exact ⟨manifests, own.trans manifests⟩

/-- The cap is declared, and is no larger than `cap`. -/
def CapNoLarger (declared : Option Int) (cap : Int) : Prop := ∃ own, declared = some own ∧ own ≤ cap

/-- The caps a hop's manifest sets are kept by the manifest and the enforcement of `later`. -/
def CapsInherited (cap : CapabilitySpec → Option Int) (earlier later : DelegationHop) : Prop :=
  ∀ granted, cap earlier.manifest = some granted →
    CapNoLarger (cap later.manifest) granted ∧ CapNoLarger (cap later.enforcement) granted

theorem capsInherited_of_within {cap : CapabilitySpec → Option Int}
    (monotone : ∀ inner outer : CapabilitySpec, inner ≤ outer →
      capBound (cap inner) ≤ capBound (cap outer))
    {earlier later : DelegationHop} (manifest : later.manifest ≤ earlier.manifest)
    (enforcement : later.enforcement ≤ earlier.manifest) : CapsInherited cap earlier later := by
  intro granted declared
  constructor
  · exact capBound_le_some (declared ▸ monotone _ _ manifest)
  · exact capBound_le_some (declared ▸ monotone _ _ enforcement)

/-- Delegation is monotone along the whole chain, although only adjacent hops are compared. -/
theorem delegation_monotone (chain : List DelegationHop) (maxDepth : Int)
    (accepted : verifyDelegation chain maxDepth = .ok ()) :
    (∀ (i j : Nat) (earlier later : DelegationHop), i ≤ j → chain[i]? = some earlier →
      chain[j]? = some later →
      capabilitySubset later.manifest earlier.manifest = .ok () ∧
        capabilitySubset later.enforcement earlier.manifest = .ok () ∧
        CapsInherited CapabilitySpec.memCap earlier later ∧
        CapsInherited CapabilitySpec.rateCap earlier later) ∧
      (chain.map DelegationHop.agentPubkey).Nodup ∧
      1 ≤ chain.length ∧ (chain.length : Int) ≤ maxDepth := by
  rcases verifyDelegation_ok accepted with ⟨nonempty, shallow, narrowing⟩
  refine ⟨?_, narrowing.distinct, List.length_pos_iff.mpr nonempty, shallow⟩
  intro i j earlier later order first second
  rcases later_within narrowing order first second with ⟨manifest, enforcement⟩
  refine ⟨(capabilitySubset_ok _ _).mpr manifest, (capabilitySubset_ok _ _).mpr enforcement, ?_, ?_⟩
  · exact capsInherited_of_within (fun _ _ within => within.2.2.2.1) manifest enforcement
  · exact capsInherited_of_within (fun _ _ within => within.2.2.2.2) manifest enforcement

/-- A root with a memory cap that subcontracts part of its paths under a lower one. -/
def Sample.delegationChain : List DelegationHop :=
  [{ agentPubkey := "root", manifest := { ro := {"/a", "/b"}, memCap := some 512 },
     enforcement := { ro := {"/a"}, memCap := some 512 } },
    { agentPubkey := "child", manifest := { ro := {"/a"}, memCap := some 256 },
      enforcement := { ro := {"/a"}, memCap := some 128 },
      delegated := some { ro := {"/a"}, memCap := some 300 } }]

theorem delegation_monotone_sample :
    (Sample.delegationChain.map DelegationHop.agentPubkey).Nodup :=
  (delegation_monotone Sample.delegationChain 3 (by decide +kernel)).2.1

end Gyza

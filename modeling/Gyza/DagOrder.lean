import Gyza.Dag

/-! Whether a DAG verdict depends on the order the envelopes are listed in.

The dictionary keeps one envelope per hash, the last one, and the hash leaves
the signature out. Everything else the verdict is made of is a function of the
set of envelopes. -/

namespace Gyza

section Verdicts

variable (crypto : Crypto) (requireClosed : Bool)

/-- The parts of a verdict that replicas compare. -/
def dagOutcome (envelopes : List ICPEnvelope) :
    Bool × List ICPEnvelope × List String × List String :=
  let verdict := verifyDag crypto requireClosed envelopes
  (verdict.valid, verdict.topoOrder, verdict.roots, verdict.leaves)

/-- The verdict is a function of the set of envelopes, and a valid one vouches
for the signature of every envelope of the list. -/
def SetDetermined (envelopes : List ICPEnvelope) : Prop :=
  (∀ reordered, envelopes.Perm reordered →
    dagOutcome crypto requireClosed reordered = dagOutcome crypto requireClosed envelopes) ∧
  ((verifyDag crypto requireClosed envelopes).valid = true →
    ∀ env ∈ envelopes, selfVerifies crypto env = true)

/-- No two different envelopes of the list share a hash. -/
def OnePerHash (envelopes : List ICPEnvelope) : Prop :=
  ∀ env ∈ envelopes, ∀ other ∈ envelopes,
    computeEnvelopeHash crypto env = computeEnvelopeHash crypto other → env = other

/-- Some hash has no envelope with a valid signature. -/
def HashUnsigned (envelopes : List ICPEnvelope) : Prop :=
  ∃ env ∈ envelopes, ∀ other ∈ envelopes,
    computeEnvelopeHash crypto other = computeEnvelopeHash crypto env →
      selfVerifies crypto other = false

end Verdicts

variable {crypto : Crypto} {requireClosed : Bool}

theorem held_perm {envelopes reordered : List ICPEnvelope} (permuted : envelopes.Perm reordered) :
    Held crypto reordered = Held crypto envelopes := by
  funext h
  simp only [Held, permuted.mem_iff]

theorem dependsOn_perm {envelopes reordered : List ICPEnvelope}
    (permuted : envelopes.Perm reordered) :
    DependsOn crypto reordered = DependsOn crypto envelopes := by
  funext parent child
  simp only [DependsOn, Producer, held_perm permuted, permuted.mem_iff]

theorem sound_perm {envelopes reordered : List ICPEnvelope} (permuted : envelopes.Perm reordered) :
    Sound crypto requireClosed reordered ↔ Sound crypto requireClosed envelopes := by
  have inputs : (∀ env ∈ reordered, env.inputHashes ≠ []) ↔
      ∀ env ∈ envelopes, env.inputHashes ≠ [] := by simp only [permuted.mem_iff]
  constructor <;> rintro ⟨nonempty, closed, acyclic⟩
  · refine ⟨inputs.mp nonempty, ?_, dependsOn_perm permuted ▸ acyclic⟩
    simpa only [held_perm permuted, permuted.mem_iff] using closed
  · refine ⟨inputs.mpr nonempty, ?_, (dependsOn_perm permuted).symm ▸ acyclic⟩
    simpa only [held_perm permuted, permuted.mem_iff] using closed

theorem keys_perm {envelopes reordered : List ICPEnvelope} (permuted : envelopes.Perm reordered) :
    (byHash crypto envelopes).keys.Perm (byHash crypto reordered).keys := by
  rw [List.perm_ext_iff_of_nodup (Dict.keys_nodup _) (Dict.keys_nodup _)]
  intro h
  rw [mem_keys_byHash, mem_keys_byHash, held_perm permuted]

private theorem sortedHashes_perm {hashes other : List String} (permuted : hashes.Perm other) :
    sortedHashes hashes = sortedHashes other := by
  apply List.Perm.eq_of_pairwise' (List.pairwise_insertionSort _ _)
    (List.pairwise_insertionSort _ _)
  exact (List.perm_insertionSort _ _).trans (permuted.trans (List.perm_insertionSort _ _).symm)

section Ideal

variable (ideal : Function.Injective crypto.blake3)
include ideal

theorem parents_perm {envelopes reordered : List ICPEnvelope}
    (permuted : envelopes.Perm reordered) :
    provenanceParents (byHash crypto envelopes) (byOutput (byHash crypto envelopes)) =
      provenanceParents (byHash crypto reordered) (byOutput (byHash crypto reordered)) := by
  funext child
  ext parent
  rw [mem_provenanceParents ideal, mem_provenanceParents ideal, dependsOn_perm permuted]

/-- Order, roots and leaves as hashes never depend on the listing. -/
theorem dagHashes_perm {envelopes reordered : List ICPEnvelope}
    (permuted : envelopes.Perm reordered) :
    dagOrder (byHash crypto envelopes) = dagOrder (byHash crypto reordered) ∧
      dagRoots (byHash crypto envelopes) = dagRoots (byHash crypto reordered) ∧
        dagLeaves (byHash crypto envelopes) = dagLeaves (byHash crypto reordered) := by
  have keys := @keys_perm crypto _ _ permuted
  have parents := parents_perm ideal permuted
  refine ⟨?_, ?_, ?_⟩
  · exact Kahn.topoOrder_congr (Dict.keys_nodup _) keys (fun _ _ => by rw [parents])
  · simp only [dagRoots, parents]
    exact sortedHashes_perm (keys.filter _)
  · simp only [dagLeaves, parents, keys.mem_iff]
    exact sortedHashes_perm (keys.filter _)

end Ideal

theorem dagOutcome_cases (envelopes : List ICPEnvelope) :
    ((verifyDag crypto requireClosed envelopes).valid = false ∧
      dagOutcome crypto requireClosed envelopes = (false, [], [], [])) ∨
    ((verifyDag crypto requireClosed envelopes).valid = true ∧
      ∃ order, dagOrder (byHash crypto envelopes) = some order ∧
        dagOutcome crypto requireClosed envelopes =
          (true, order.filterMap (byHash crypto envelopes).lookup,
            dagRoots (byHash crypto envelopes), dagLeaves (byHash crypto envelopes))) := by
  rcases verifyDag_cases crypto requireClosed envelopes with ⟨⟨reason, verdict⟩, _⟩ |
    ⟨_, order, sorted, verdict⟩
  · exact Or.inl (by simp [dagOutcome, verdict])
  · exact Or.inr ⟨by simp [verdict], order, sorted, by simp [dagOutcome, verdict]⟩

theorem dagOutcome_valid (envelopes : List ICPEnvelope) :
    (dagOutcome crypto requireClosed envelopes).1 =
      (verifyDag crypto requireClosed envelopes).valid := rfl

/-- The envelopes of a valid order are the ones kept, one per hash. -/
theorem mem_topoOrder {envelopes : List ICPEnvelope} {env : ICPEnvelope}
    (valid : (verifyDag crypto requireClosed envelopes).valid = true) :
    env ∈ (verifyDag crypto requireClosed envelopes).topoOrder ↔
      (byHash crypto envelopes).lookup (computeEnvelopeHash crypto env) = some env := by
  rcases verifyDag_cases crypto requireClosed envelopes with ⟨⟨reason, verdict⟩, _⟩ |
    ⟨_, order, sorted, verdict⟩
  · simp [verdict] at valid
  · rcases (Kahn.topoOrder_eq_some_iff (Dict.keys_nodup _) order).mp sorted with ⟨greedy, complete⟩
    have sameKeys := Kahn.greedy_covers greedy complete
    simp only [verdict, List.mem_filterMap, sameKeys.mem_iff]
    constructor
    · intro listed
      rcases listed with ⟨h, _, found⟩
      rwa [(lookup_byHash_mem found).2]
    · intro found
      exact ⟨_, (Dict.mem_keys _ _).mpr ⟨env, found⟩, found⟩

/-- Any choice of one held envelope per hash is what some order keeps. -/
theorem exists_order_keeping (envelopes : List ICPEnvelope) (choose : String → ICPEnvelope)
    (chosen : ∀ env ∈ envelopes, choose (computeEnvelopeHash crypto env) ∈ envelopes ∧
      computeEnvelopeHash crypto (choose (computeEnvelopeHash crypto env)) =
        computeEnvelopeHash crypto env) :
    ∃ reordered, envelopes.Perm reordered ∧ ∀ env ∈ envelopes,
      (byHash crypto reordered).lookup (computeEnvelopeHash crypto env) =
        some (choose (computeEnvelopeHash crypto env)) := by
  let kept : ICPEnvelope → Bool := fun env => env = choose (computeEnvelopeHash crypto env)
  refine ⟨envelopes.filter (fun env => !kept env) ++ envelopes.filter kept, ?_, ?_⟩
  · exact ((List.perm_append_comm).trans (List.filter_append_perm kept envelopes)).symm
  · intro env member
    rcases chosen env member with ⟨chosenHeld, chosenHash⟩
    have present : ((envelopes.filter kept).reverse.find? (fun other =>
        computeEnvelopeHash crypto other = computeEnvelopeHash crypto env)) =
          some (choose (computeEnvelopeHash crypto env)) := by
      cases found : (envelopes.filter kept).reverse.find? (fun other =>
          computeEnvelopeHash crypto other = computeEnvelopeHash crypto env) with
      | none =>
          have absent := List.find?_eq_none.mp found (choose (computeEnvelopeHash crypto env))
            (by simp [kept, chosenHeld, chosenHash])
          simp [chosenHash] at absent
      | some other =>
          have hash : computeEnvelopeHash crypto other = computeEnvelopeHash crypto env := by
            simpa using List.find?_some found
          have inKept := List.mem_reverse.mp (List.mem_of_find?_eq_some found)
          have isChosen : other = choose (computeEnvelopeHash crypto other) := by
            simpa [kept] using (List.mem_filter.mp inKept).2
          rw [isChosen, hash]
    rw [lookup_byHash, List.reverse_append, List.find?_append, present]
    rfl

/-- A list rejected in every order gives one verdict. -/
theorem setDetermined_of_rejected {envelopes : List ICPEnvelope}
    (rejected : ∀ reordered, envelopes.Perm reordered →
      (verifyDag crypto requireClosed reordered).valid = false) :
    SetDetermined crypto requireClosed envelopes := by
  have blank : ∀ reordered, envelopes.Perm reordered →
      dagOutcome crypto requireClosed reordered = (false, [], [], []) := by
    intro reordered permuted
    rcases @dagOutcome_cases crypto requireClosed reordered with ⟨_, outcome⟩ | ⟨valid, _⟩
    · exact outcome
    · rw [rejected reordered permuted] at valid
      cases valid
  constructor
  · intro reordered permuted
    rw [blank reordered permuted, blank envelopes (List.Perm.refl _)]
  · intro valid
    rw [rejected envelopes (List.Perm.refl _)] at valid
    cases valid

theorem lookup_perm {envelopes reordered : List ICPEnvelope} (permuted : envelopes.Perm reordered)
    (single : OnePerHash crypto envelopes) :
    (byHash crypto reordered).lookup = (byHash crypto envelopes).lookup := by
  funext h
  cases found : (byHash crypto envelopes).lookup h with
  | none =>
      cases other : (byHash crypto reordered).lookup h with
      | none => rfl
      | some env =>
          rcases lookup_byHash_mem other with ⟨member, rfl⟩
          rcases @exists_lookup_byHash crypto _ _ (permuted.mem_iff.mpr member) with ⟨kept, present⟩
          rw [present] at found
          cases found
  | some env =>
      rcases lookup_byHash_mem found with ⟨member, rfl⟩
      rcases @exists_lookup_byHash crypto _ _ (permuted.mem_iff.mp member) with ⟨kept, present⟩
      rcases lookup_byHash_mem present with ⟨keptMember, keptHash⟩
      rw [present, single kept (permuted.mem_iff.mpr keptMember) env member keptHash]

section Iff

variable (ideal : Function.Injective crypto.blake3)
include ideal

theorem setDetermined_of_onePerHash {envelopes : List ICPEnvelope}
    (single : OnePerHash crypto envelopes) : SetDetermined crypto requireClosed envelopes := by
  constructor
  · intro reordered permuted
    have lookups := lookup_perm permuted single
    have validity : (verifyDag crypto requireClosed reordered).valid = true ↔
        (verifyDag crypto requireClosed envelopes).valid = true := by
      rw [verifyDag_valid_iff ideal, verifyDag_valid_iff ideal, lookups, sound_perm permuted]
    rcases dagHashes_perm ideal permuted with ⟨orders, roots, leaves⟩
    rcases @dagOutcome_cases crypto requireClosed envelopes with ⟨invalid, outcome⟩ |
      ⟨valid, order, sorted, outcome⟩
    · rcases @dagOutcome_cases crypto requireClosed reordered with ⟨_, outcome'⟩ | ⟨valid', _⟩
      · rw [outcome, outcome']
      · rw [validity.mp valid'] at invalid
        cases invalid
    · rcases @dagOutcome_cases crypto requireClosed reordered with ⟨invalid', _⟩ |
        ⟨_, order', sorted', outcome'⟩
      · rw [validity.mpr valid] at invalid'
        cases invalid'
      · rw [← orders, sorted] at sorted'
        cases sorted'
        rw [outcome, outcome', lookups, roots, leaves]
  · intro valid env member
    rcases @exists_lookup_byHash crypto _ _ member with ⟨kept, found⟩
    rcases lookup_byHash_mem found with ⟨keptMember, keptHash⟩
    rw [← single kept keptMember env member keptHash]
    exact ((verifyDag_valid_iff ideal requireClosed envelopes).mp valid).1 _ kept found

/-- The validity of an order that keeps a given choice. -/
theorem verifyDag_valid_keeping {envelopes reordered : List ICPEnvelope}
    {choose : String → ICPEnvelope} (permuted : envelopes.Perm reordered)
    (sound : Sound crypto requireClosed envelopes)
    (keeps : ∀ env ∈ envelopes, (byHash crypto reordered).lookup (computeEnvelopeHash crypto env) =
      some (choose (computeEnvelopeHash crypto env))) :
    (verifyDag crypto requireClosed reordered).valid = true ↔
      ∀ env ∈ envelopes,
        selfVerifies crypto (choose (computeEnvelopeHash crypto env)) = true := by
  rw [verifyDag_valid_iff ideal, sound_perm permuted]
  constructor
  · intro ⟨verifies, _⟩ env member
    exact verifies _ _ (keeps env member)
  · intro verifies
    refine ⟨?_, sound⟩
    intro h env found
    rcases lookup_byHash_mem found with ⟨member, rfl⟩
    have held := permuted.mem_iff.mpr member
    rw [keeps env held] at found
    rw [← Option.some.inj found]
    exact verifies env held

omit ideal in
/-- Unless some hash is unsigned, each hash of the list can be given an envelope that verifies. -/
theorem exists_verifying_choice {envelopes : List ICPEnvelope} (fallback : ICPEnvelope)
    (signed : ¬ HashUnsigned crypto envelopes) :
    ∃ good : String → ICPEnvelope, ∀ env ∈ envelopes,
      good (computeEnvelopeHash crypto env) ∈ envelopes ∧
        computeEnvelopeHash crypto (good (computeEnvelopeHash crypto env)) =
          computeEnvelopeHash crypto env ∧
        selfVerifies crypto (good (computeEnvelopeHash crypto env)) = true := by
  have total : ∀ h, ∃ other, ∀ env ∈ envelopes, computeEnvelopeHash crypto env = h →
      other ∈ envelopes ∧ computeEnvelopeHash crypto other = h ∧
        selfVerifies crypto other = true := by
    intro h
    by_cases held : ∃ env ∈ envelopes, computeEnvelopeHash crypto env = h
    · rcases held with ⟨env, member, rfl⟩
      by_contra none
      apply signed
      refine ⟨env, member, fun other otherHeld hash => ?_⟩
      by_contra verifies
      exact none ⟨other, fun _ _ _ => ⟨otherHeld, hash, by simpa using verifies⟩⟩
    · exact ⟨fallback, fun env member same => absurd ⟨env, member, same⟩ held⟩
  choose good spec using total
  exact ⟨good, fun env member => spec _ env member rfl⟩

/-- Two envelopes of one hash, of which one verifies, are told apart by some pair of orders. -/
theorem not_setDetermined {envelopes : List ICPEnvelope} (signed : ¬ HashUnsigned crypto envelopes)
    (sound : Sound crypto requireClosed envelopes) (shared : ¬ OnePerHash crypto envelopes) :
    ¬ SetDetermined crypto requireClosed envelopes := by
  intro ⟨orderFree, _⟩
  simp only [OnePerHash, not_forall] at shared
  rcases shared with ⟨first, firstHeld, second, secondHeld, hashes, differ⟩
  rcases exists_verifying_choice first signed with ⟨good, goodSpec⟩
  -- the one of the two that `good` does not keep
  obtain ⟨other, otherHeld, otherHash, otherNe⟩ : ∃ other ∈ envelopes,
      computeEnvelopeHash crypto other = computeEnvelopeHash crypto first ∧
        other ≠ good (computeEnvelopeHash crypto first) := by
    by_cases same : first = good (computeEnvelopeHash crypto first)
    · exact ⟨second, secondHeld, hashes.symm, fun equal => differ (same.trans equal.symm)⟩
    · exact ⟨first, firstHeld, rfl, same⟩
  let pick : String → ICPEnvelope := fun h =>
    if h = computeEnvelopeHash crypto first then other else good h
  rcases @exists_order_keeping crypto envelopes good
    (fun env member => ⟨(goodSpec env member).1, (goodSpec env member).2.1⟩) with
    ⟨goodOrder, goodPerm, goodKeeps⟩
  rcases @exists_order_keeping crypto envelopes pick (by
    intro env member
    by_cases same : computeEnvelopeHash crypto env = computeEnvelopeHash crypto first
    · simp only [pick, same, if_true]
      exact ⟨otherHeld, otherHash⟩
    · simp only [pick, same, if_false]
      exact ⟨(goodSpec env member).1, (goodSpec env member).2.1⟩) with
    ⟨pickOrder, pickPerm, pickKeeps⟩
  have goodValid : (verifyDag crypto requireClosed goodOrder).valid = true :=
    (verifyDag_valid_keeping ideal goodPerm sound goodKeeps).mpr
      (fun env member => (goodSpec env member).2.2)
  have outcomes : dagOutcome crypto requireClosed pickOrder =
      dagOutcome crypto requireClosed goodOrder :=
    (orderFree pickOrder pickPerm).trans (orderFree goodOrder goodPerm).symm
  have pickValid : (verifyDag crypto requireClosed pickOrder).valid = true := by
    rw [← dagOutcome_valid, outcomes, dagOutcome_valid, goodValid]
  have topo : (verifyDag crypto requireClosed pickOrder).topoOrder =
      (verifyDag crypto requireClosed goodOrder).topoOrder :=
    congrArg (fun outcome => outcome.2.1) outcomes
  have inPick : other ∈ (verifyDag crypto requireClosed pickOrder).topoOrder := by
    rw [mem_topoOrder pickValid, otherHash, pickKeeps first firstHeld]
    simp [pick]
  rw [topo, mem_topoOrder goodValid, otherHash, goodKeeps first firstHeld] at inPick
  exact otherNe (Option.some.inj inPick).symm

theorem dag_set_determined_iff (envelopes : List ICPEnvelope) :
    SetDetermined crypto requireClosed envelopes ↔
      OnePerHash crypto envelopes ∨ HashUnsigned crypto envelopes ∨
        ¬ Sound crypto requireClosed envelopes := by
  constructor
  · intro determined
    by_contra neither
    push Not at neither
    rcases neither with ⟨shared, signed, sound⟩
    exact not_setDetermined ideal signed sound shared determined
  · rintro (single | ⟨env, member, unsigned⟩ | unsound)
    · exact setDetermined_of_onePerHash ideal single
    · apply setDetermined_of_rejected
      intro reordered permuted
      by_contra valid
      rw [Bool.not_eq_false, verifyDag_valid_iff ideal] at valid
      rcases @exists_lookup_byHash crypto _ _ (permuted.mem_iff.mp member) with ⟨kept, found⟩
      rcases lookup_byHash_mem found with ⟨keptMember, keptHash⟩
      have verifies := valid.1 _ kept found
      rw [unsigned kept (permuted.mem_iff.mpr keptMember) keptHash] at verifies
      cases verifies
    · apply setDetermined_of_rejected
      intro reordered permuted
      by_contra valid
      rw [Bool.not_eq_false, verifyDag_valid_iff ideal, sound_perm permuted] at valid
      exact unsound valid.2

end Iff

/-- The same payload as `Sample.envelope`, with the signature taken off. -/
def strippedEnvelope : ICPEnvelope :=
  (Sample.envelope ["in"] "out" none).unsigned

private theorem sample_sound :
    Sound Sample.crypto false [Sample.envelope ["in"] "out" none, strippedEnvelope] := by
  refine ⟨by decide, by simp, ?_⟩
  have isolated : ∀ parent child, ¬ DependsOn Sample.crypto
      [Sample.envelope ["in"] "out" none, strippedEnvelope] parent child := by
    rintro parent child ⟨env, member, _, ⟨spine, _⟩ | ⟨input, named, ⟨⟨source, held, output, _⟩, _⟩, _⟩⟩
    · have root : env.parentEnvelopeHash = none := by
        rcases List.mem_pair.mp member with rfl | rfl <;> rfl
      rw [root] at spine
      cases spine
    · have inputs : env.inputHashes = ["in"] := by
        rcases List.mem_pair.mp member with rfl | rfl <;> rfl
      have made : source.outputHash = "out" := by
        rcases List.mem_pair.mp held with rfl | rfl <;> rfl
      rw [inputs, List.mem_singleton] at named
      rw [made, named] at output
      exact absurd output (by decide)
  intro h loop
  rcases Relation.TransGen.head'_iff.mp loop with ⟨_, edge, _⟩
  exact isolated _ _ edge

theorem dag_set_determined_sample :
    SetDetermined Sample.crypto false [Sample.envelope ["in"] "out" none] := by
  refine (dag_set_determined_iff Sample.blake3_injective _).mpr (Or.inl ?_)
  intro env member other otherMember _
  rw [List.mem_singleton.mp member, List.mem_singleton.mp otherMember]

/-- The signed envelope listed before or after its unsigned copy changes the verdict. -/
theorem dag_order_dependent : ¬ SetDetermined Sample.crypto false
    [Sample.envelope ["in"] "out" none, strippedEnvelope] := by
  refine not_setDetermined Sample.blake3_injective ?_ sample_sound ?_
  · intro ⟨env, member, unsigned⟩
    have hash : computeEnvelopeHash Sample.crypto (Sample.envelope ["in"] "out" none) =
        computeEnvelopeHash Sample.crypto env := by
      rcases List.mem_pair.mp member with rfl | rfl
      · rfl
      · exact (computeEnvelopeHash_unsigned _).symm
    have verifies := Sample.envelope_verifies ["in"] "out" none
    rw [unsigned _ (by simp) hash] at verifies
    cases verifies
  · intro single
    have same := single (Sample.envelope ["in"] "out" none) (by simp) strippedEnvelope (by simp)
      (computeEnvelopeHash_unsigned _).symm
    have signatures : (Sample.envelope ["in"] "out" none).signature = "" :=
      congrArg ICPEnvelope.signature same
    exact (Sample.compositor 1).sign_ne_empty _ signatures

end Gyza

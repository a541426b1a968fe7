import Gyza.Dag

/-! Linear histories as DAGs.

A chain is one spine path. Its data edges agree with the spine unless an
envelope reads an output whose recorded producer comes later in the chain. -/

namespace Gyza

section Statements

variable (crypto : Crypto)

/-- The closed verdict of a single path: the list itself, one root, one leaf. -/
def LinearVerdict (envelopes : List ICPEnvelope) : Prop :=
  (verifyDag crypto true envelopes).valid = true ∧
    (verifyDag crypto true envelopes).topoOrder = envelopes ∧
    (verifyDag crypto true envelopes).roots =
      (envelopes.head?.map (computeEnvelopeHash crypto)).toList ∧
    (verifyDag crypto true envelopes).leaves =
      (envelopes.getLast?.map (computeEnvelopeHash crypto)).toList

/-- Some input names an output whose least-hash producer comes later in the list. -/
def ReadsLater (envelopes : List ICPEnvelope) : Prop :=
  ∃ front env back, envelopes = front ++ env :: back ∧
    ∃ input ∈ env.inputHashes, ∃ later ∈ back, later.outputHash = input ∧
      ∀ other ∈ envelopes, other.outputHash = input →
        computeEnvelopeHash crypto later ≤ computeEnvelopeHash crypto other

end Statements

variable {crypto : Crypto}

theorem chainFrom_member {previous : Option ICPEnvelope} {envelopes : List ICPEnvelope}
    (chain : ChainFrom crypto previous envelopes) :
    ∀ env ∈ envelopes, selfVerifies crypto env = true ∧ env.inputHashes ≠ [] := by
  induction envelopes generalizing previous with
  | nil => simp
  | cons head rest ih =>
      rcases chain with ⟨verifies, _, inputs, tail⟩
      intro env member
      rcases List.mem_cons.mp member with rfl | member
      · exact ⟨verifies, inputs⟩
      · exact ih tail env member

theorem chainFrom_head {env : ICPEnvelope} {back : List ICPEnvelope}
    (chain : ChainFrom crypto none (env :: back)) : env.parentEnvelopeHash = none := chain.2.1

/-- Every later envelope points at the one before it. -/
theorem chainFrom_spine {previous : Option ICPEnvelope} {front back : List ICPEnvelope}
    {before env : ICPEnvelope}
    (chain : ChainFrom crypto previous (front ++ before :: env :: back)) :
    env.parentEnvelopeHash = some (computeEnvelopeHash crypto before) := by
  induction front generalizing previous with
  | nil => exact chain.2.2.2.2.1
  | cons head front ih => exact ih chain.2.2.2

section Ideal

variable (ideal : Function.Injective crypto.blake3)
include ideal

/-- No two envelopes of a chain share a hash: equal hashes would have equal
parents, down to the root, which has none. -/
theorem chain_hash_ne (front middle back : List ICPEnvelope) (env other : ICPEnvelope)
    (chain : ChainFrom crypto none (front ++ env :: (middle ++ other :: back))) :
    computeEnvelopeHash crypto env ≠ computeEnvelopeHash crypto other := by
  induction front using List.reverseRecOn generalizing env middle other back with
  | nil =>
      intro same
      rcases (env :: middle).eq_nil_or_concat.resolve_left (by simp) with ⟨init, last, ends⟩
      have split : env :: (middle ++ other :: back) = init ++ last :: other :: back := by
        rw [← List.cons_append, ends]
        simp
      rw [List.nil_append] at chain
      have root := chainFrom_head chain
      rw [split] at chain
      have spine := chainFrom_spine chain
      rcases unsigned_graph_fields ((computeEnvelopeHash_eq_iff ideal env other).mp same) with
        ⟨parents, _, _⟩
      rw [root, spine] at parents
      cases parents
  | append_singleton front before ih =>
      intro same
      rcases (env :: middle).eq_nil_or_concat.resolve_left (by simp) with ⟨init, last, ends⟩
      have split : front ++ [before] ++ env :: (middle ++ other :: back) =
          (front ++ before :: init) ++ last :: other :: back := by
        rw [← List.cons_append, ends]
        simp
      have envSpine : env.parentEnvelopeHash = some (computeEnvelopeHash crypto before) :=
        @chainFrom_spine crypto none front (middle ++ other :: back) before env (by simpa using chain)
      rw [split] at chain
      have otherSpine := chainFrom_spine chain
      rcases unsigned_graph_fields ((computeEnvelopeHash_eq_iff ideal env other).mp same) with
        ⟨parents, _, _⟩
      rw [envSpine, otherSpine] at parents
      exact ih init (other :: back) before last (by simpa using chain) (Option.some.inj parents)

theorem chain_hashes_nodup {envelopes : List ICPEnvelope}
    (chain : ChainFrom crypto none envelopes) :
    (envelopes.map (computeEnvelopeHash crypto)).Nodup := by
  have suffix : ∀ back front, envelopes = front ++ back →
      (back.map (computeEnvelopeHash crypto)).Nodup := by
    intro back
    induction back with
    | nil => simp
    | cons env back ih =>
        intro front split
        rw [List.map_cons, List.nodup_cons]
        refine ⟨?_, ih (front ++ [env]) (by simp [split])⟩
        intro member
        rcases List.mem_map.mp member with ⟨other, inBack, same⟩
        rcases List.append_of_mem inBack with ⟨middle, rest, rfl⟩
        exact chain_hash_ne ideal front middle rest env other (split ▸ chain) same.symm
  exact suffix envelopes [] rfl

end Ideal

/-! The graph of a list whose hashes are distinct. -/

section Distinct

variable {envelopes : List ICPEnvelope}
  (distinct : (envelopes.map (computeEnvelopeHash crypto)).Nodup)
include distinct

theorem keys_distinct :
    (byHash crypto envelopes).keys = envelopes.map (computeEnvelopeHash crypto) := by
  have rows := Dict.rows_foldl_set (computeEnvelopeHash crypto) id envelopes distinct
  have keys := congrArg (List.map Prod.fst) rows
  rwa [List.map_map] at keys

theorem hash_injOn {env other : ICPEnvelope} (member : env ∈ envelopes)
    (otherMember : other ∈ envelopes)
    (same : computeEnvelopeHash crypto env = computeEnvelopeHash crypto other) : env = other :=
  List.inj_on_of_nodup_map distinct member otherMember same

theorem lookup_distinct {env : ICPEnvelope} (member : env ∈ envelopes) :
    (byHash crypto envelopes).lookup (computeEnvelopeHash crypto env) = some env := by
  rcases @exists_lookup_byHash crypto _ _ member with ⟨kept, found⟩
  rcases lookup_byHash_mem found with ⟨keptMember, keptHash⟩
  rw [found, hash_injOn distinct keptMember member keptHash]

theorem filterMap_lookup_keys :
    (byHash crypto envelopes).keys.filterMap (byHash crypto envelopes).lookup = envelopes := by
  rw [keys_distinct distinct, List.filterMap_map]
  have each : ∀ env ∈ envelopes,
      ((byHash crypto envelopes).lookup ∘ computeEnvelopeHash crypto) env = some env :=
    fun env member => lookup_distinct distinct member
  rw [List.filterMap_congr each, List.filterMap_some]

end Distinct

section Chain

variable {envelopes : List ICPEnvelope} (chain : ChainFrom crypto none envelopes)
include chain

theorem spine_edge {front back : List ICPEnvelope} {before env : ICPEnvelope}
    (split : envelopes = front ++ before :: env :: back) :
    DependsOn crypto envelopes (computeEnvelopeHash crypto before)
      (computeEnvelopeHash crypto env) := by
  have spine := chainFrom_spine (split ▸ chain)
  exact ⟨env, by simp [split], rfl, Or.inl ⟨spine, before, by simp [split], rfl⟩⟩

/-- Along the spine everything later depends on an envelope. -/
theorem spine_path (back : List ICPEnvelope) :
    ∀ (front : List ICPEnvelope) (env : ICPEnvelope), envelopes = front ++ env :: back →
      ∀ later ∈ back, Relation.TransGen (DependsOn crypto envelopes)
        (computeEnvelopeHash crypto env) (computeEnvelopeHash crypto later) := by
  induction back with
  | nil => simp
  | cons next back ih =>
      intro front env split later member
      have first := Relation.TransGen.single (spine_edge chain split)
      rcases List.mem_cons.mp member with rfl | member
      · exact first
      · exact first.trans (ih (front ++ [env]) next (by simp [split]) later member)

variable (distinct : (envelopes.map (computeEnvelopeHash crypto)).Nodup)

include distinct in
theorem readsLater_cycle (reads : ReadsLater crypto envelopes) :
    ∃ h, Relation.TransGen (DependsOn crypto envelopes) h h := by
  rcases reads with ⟨front, env, back, split, input, named, later, inBack, output, least⟩
  have envHeld : env ∈ envelopes := by simp [split]
  have laterHeld : later ∈ envelopes := by simp [split, inBack]
  have apart : computeEnvelopeHash crypto later ≠ computeEnvelopeHash crypto env := by
    rw [split, List.map_append, List.map_cons] at distinct
    have fresh := (List.nodup_cons.mp (List.nodup_append.mp distinct).2.1).1
    intro same
    exact fresh (same ▸ List.mem_map_of_mem inBack)
  have reading : DependsOn crypto envelopes (computeEnvelopeHash crypto later)
      (computeEnvelopeHash crypto env) := by
    refine ⟨env, envHeld, rfl, Or.inr ⟨input, named, ⟨⟨later, laterHeld, output, rfl⟩, ?_⟩, apart⟩⟩
    rintro _ ⟨other, otherHeld, otherOutput, rfl⟩
    exact least other otherHeld otherOutput
  exact ⟨_, (spine_path chain back front env split later inBack).tail reading⟩

include distinct in
/-- Without forward reads an envelope depends on earlier ones only. -/
theorem dependsOn_earlier (plain : ¬ ReadsLater crypto envelopes) {front back : List ICPEnvelope}
    {env : ICPEnvelope} (split : envelopes = front ++ env :: back) {parent : String}
    (edge : DependsOn crypto envelopes parent (computeEnvelopeHash crypto env)) :
    parent ∈ front.map (computeEnvelopeHash crypto) := by
  rcases edge with
    ⟨same, held, hash, spine | ⟨input, named, ⟨⟨source, sourceHeld, output, rfl⟩, least⟩, other⟩⟩
  · rw [hash_injOn distinct held (by simp [split]) hash] at spine
    rcases front.eq_nil_or_concat with rfl | ⟨init, before, rfl⟩
    · rw [List.nil_append] at split
      subst split
      rw [chainFrom_head chain] at spine
      cases spine.1
    · rw [List.concat_eq_append, List.append_assoc, List.singleton_append] at split
      have pointer := chainFrom_spine (split ▸ chain)
      rw [pointer] at spine
      rw [← Option.some.inj spine.1, List.concat_eq_append]
      simp
  · rw [hash_injOn distinct held (by simp [split]) hash] at named
    rw [split, List.mem_append, List.mem_cons] at sourceHeld
    rcases sourceHeld with inFront | rfl | inBack
    · exact List.mem_map_of_mem inFront
    · exact absurd rfl other
    · refine absurd ⟨front, env, back, split, input, named, source, inBack, output, ?_⟩ plain
      intro producer producerHeld producerOutput
      exact least ⟨producer, producerHeld, producerOutput, rfl⟩

end Chain

private theorem split_hashes {envelopes : List ICPEnvelope} {front back : List String} {node : String}
    (split : envelopes.map (computeEnvelopeHash crypto) = front ++ node :: back) :
    ∃ before env after, envelopes = before ++ env :: after ∧
      before.map (computeEnvelopeHash crypto) = front ∧ computeEnvelopeHash crypto env = node ∧
      after.map (computeEnvelopeHash crypto) = back := by
  rcases List.map_eq_append_iff.mp split with ⟨before, rest, rfl, fronts, tail⟩
  rcases List.map_eq_cons_iff.mp tail with ⟨env, after, rfl, node, backs⟩
  exact ⟨before, env, after, rfl, fronts, node, backs⟩

section Verdict

variable (ideal : Function.Injective crypto.blake3) {envelopes : List ICPEnvelope}
  (chain : ChainFrom crypto none envelopes) (plain : ¬ ReadsLater crypto envelopes)
include ideal chain plain

theorem chain_dagOrder :
    dagOrder (byHash crypto envelopes) = some (byHash crypto envelopes).keys := by
  have distinct := chain_hashes_nodup ideal chain
  apply Kahn.topoOrder_of_spine (Dict.keys_nodup _)
  · intro front node back split parent edge
    rw [keys_distinct distinct] at split
    rcases split_hashes split with ⟨before, env, after, envSplit, rfl, rfl, _⟩
    rw [mem_provenanceParents ideal] at edge
    exact List.mem_toFinset.mpr (dependsOn_earlier chain distinct plain envSplit edge)
  · intro front previous node back split
    rw [keys_distinct distinct] at split
    rcases split_hashes split with ⟨before, env, after, envSplit, _, rfl, tail⟩
    rcases List.map_eq_cons_iff.mp tail with ⟨next, rest, rfl, rfl, _⟩
    rw [mem_provenanceParents ideal]
    exact spine_edge chain envSplit

theorem chain_roots :
    dagRoots (byHash crypto envelopes) =
      (envelopes.head?.map (computeEnvelopeHash crypto)).toList := by
  have distinct := chain_hashes_nodup ideal chain
  rw [dagRoots, keys_distinct distinct]
  cases envelopes with
  | nil => rfl
  | cons first rest =>
      have isRoot : provenanceParents (byHash crypto (first :: rest))
          (byOutput (byHash crypto (first :: rest))) (computeEnvelopeHash crypto first) = ∅ := by
        apply Finset.eq_empty_of_forall_notMem
        intro parent edge
        rw [mem_provenanceParents ideal] at edge
        have earlier := dependsOn_earlier chain distinct plain
          (show first :: rest = [] ++ first :: rest from rfl) edge
        simp at earlier
      have others : (rest.map (computeEnvelopeHash crypto)).filter (fun h =>
          provenanceParents (byHash crypto (first :: rest))
            (byOutput (byHash crypto (first :: rest))) h = ∅) = [] := by
        rw [List.filter_eq_nil_iff]
        intro h member
        rcases List.mem_map.mp member with ⟨env, inRest, rfl⟩
        rcases List.append_of_mem inRest with ⟨before, after, rfl⟩
        rcases (first :: before).eq_nil_or_concat.resolve_left (by simp) with ⟨init, last, ends⟩
        have split : first :: (before ++ env :: after) = init ++ last :: env :: after := by
          rw [← List.cons_append, ends]
          simp
        have edge := spine_edge chain split
        rw [← mem_provenanceParents ideal] at edge
        simp [Finset.ne_empty_of_mem edge]
      simp only [List.map_cons, List.filter_cons, isRoot, others]
      rfl

/-- Nothing reads the last envelope. -/
theorem last_unread {init : List ICPEnvelope} {last : ICPEnvelope}
    (whole : envelopes = init ++ [last]) :
    ∀ child ∈ envelopes.map (computeEnvelopeHash crypto),
      computeEnvelopeHash crypto last ∉
        provenanceParents (byHash crypto envelopes) (byOutput (byHash crypto envelopes)) child := by
  have distinct := chain_hashes_nodup ideal chain
  intro child member edge
  rw [mem_provenanceParents ideal] at edge
  rcases List.mem_map.mp member with ⟨env, held, rfl⟩
  rcases List.append_of_mem held with ⟨front, back, split⟩
  have earlier := dependsOn_earlier chain distinct plain split edge
  have late : last ∈ env :: back := by
    have ends := congrArg List.getLast? (whole.symm.trans split)
    rw [List.getLast?_concat, List.getLast?_append_of_ne_nil _ (by simp)] at ends
    exact List.mem_of_getLast? ends.symm
  rw [split, List.map_append] at distinct
  exact List.disjoint_of_nodup_append distinct earlier (List.mem_map_of_mem late)

omit plain in
/-- Every other envelope is read by the next one, through the spine. -/
theorem inner_read {front back : List ICPEnvelope} {env : ICPEnvelope}
    (split : envelopes = front ++ env :: back) (inner : back ≠ []) :
    ∃ child ∈ envelopes.map (computeEnvelopeHash crypto), computeEnvelopeHash crypto env ∈
      provenanceParents (byHash crypto envelopes) (byOutput (byHash crypto envelopes)) child := by
  rcases List.exists_cons_of_ne_nil inner with ⟨next, rest, rfl⟩
  refine ⟨computeEnvelopeHash crypto next, by simp [split], ?_⟩
  rw [mem_provenanceParents ideal]
  exact spine_edge chain split

theorem chain_leaves :
    dagLeaves (byHash crypto envelopes) =
      (envelopes.getLast?.map (computeEnvelopeHash crypto)).toList := by
  have distinct := chain_hashes_nodup ideal chain
  rw [dagLeaves, keys_distinct distinct]
  rcases envelopes.eq_nil_or_concat with rfl | ⟨init, last, rfl⟩
  · rfl
  · rw [List.concat_eq_append] at *
    have unread := last_unread ideal chain plain rfl
    have others : (init.map (computeEnvelopeHash crypto)).filter (fun h =>
        ∀ child ∈ (init ++ [last]).map (computeEnvelopeHash crypto),
          h ∉ provenanceParents (byHash crypto (init ++ [last]))
            (byOutput (byHash crypto (init ++ [last]))) child) = [] := by
      rw [List.filter_eq_nil_iff]
      intro h member
      rcases List.mem_map.mp member with ⟨env, inInit, rfl⟩
      rcases List.append_of_mem inInit with ⟨front, back, rfl⟩
      rcases inner_read ideal chain (show front ++ env :: back ++ [last] =
        front ++ env :: (back ++ [last]) by simp) (by simp) with ⟨child, key, edge⟩
      simp only [decide_eq_true_eq]
      exact fun none => none child key edge
    rw [List.map_append, List.filter_append, ← List.map_append, others]
    simp only [List.nil_append, List.map_cons, List.map_nil, List.getLast?_concat, Option.map_some,
      Option.toList_some]
    rw [List.filter_cons_of_pos (by simpa using unread)]
    rfl

/-- The verdict on a chain without forward reads. -/
theorem chain_linearVerdict : LinearVerdict crypto envelopes := by
  have distinct := chain_hashes_nodup ideal chain
  have order := chain_dagOrder ideal chain plain
  have valid : (verifyDag crypto true envelopes).valid = true := by
    rw [verifyDag_valid_iff ideal]
    refine ⟨?_, ?_, ?_, ?_⟩
    · intro h env found
      exact (chainFrom_member chain env (lookup_byHash_mem found).1).1
    · exact fun env member => (chainFrom_member chain env member).2
    · intro _ env member parent pointer
      rcases List.append_of_mem member with ⟨front, back, split⟩
      rcases front.eq_nil_or_concat with rfl | ⟨init, before, rfl⟩
      · rw [List.nil_append] at split
        subst split
        rw [chainFrom_head chain] at pointer
        cases pointer
      · rw [List.concat_eq_append, List.append_assoc, List.singleton_append] at split
        rw [chainFrom_spine (split ▸ chain)] at pointer
        exact ⟨before, by simp [split], Option.some.inj pointer⟩
    · exact (dagOrder_exists_iff ideal envelopes).mp ⟨_, order⟩
  rcases verifyDag_cases crypto true envelopes with ⟨⟨reason, verdict⟩, _⟩ |
    ⟨_, order', sorted, verdict⟩
  · rw [verdict] at valid
    cases valid
  · rw [order] at sorted
    cases sorted
    refine ⟨valid, ?_, ?_, ?_⟩
    · rw [verdict]
      exact filterMap_lookup_keys distinct
    · rw [verdict]
      exact chain_roots ideal chain plain
    · rw [verdict]
      exact chain_leaves ideal chain plain

end Verdict

theorem not_linear_of_readsLater (ideal : Function.Injective crypto.blake3)
    {envelopes : List ICPEnvelope} (chain : ChainFrom crypto none envelopes)
    (reads : ReadsLater crypto envelopes) : ¬ LinearVerdict crypto envelopes := by
  intro ⟨valid, _⟩
  rcases readsLater_cycle chain (chain_hashes_nodup ideal chain) reads with ⟨h, loop⟩
  exact ((verifyDag_valid_iff ideal true envelopes).mp valid).2.acyclic h loop

/-- An accepted chain is a one-path DAG exactly when no envelope reads forward. -/
theorem verifyChain_linear_iff (ideal : Function.Injective crypto.blake3)
    (envelopes : List ICPEnvelope) (accepted : verifyChain crypto envelopes = (true, -1)) :
    LinearVerdict crypto envelopes ↔ ¬ ReadsLater crypto envelopes := by
  have chain := (verifyChain_accepts envelopes).mp accepted
  constructor
  · exact fun linear reads => not_linear_of_readsLater ideal chain reads linear
  · exact chain_linearVerdict ideal chain

/-- Two actions in a row: the second reads what the first made of `input`. -/
def Sample.pair (input middle output : String) : List ICPEnvelope :=
  [Sample.envelope [input] middle none,
    Sample.envelope [middle] output
      (some (computeEnvelopeHash Sample.crypto (Sample.envelope [input] middle none)))]

theorem Sample.pair_chain (input middle output : String) :
    verifyChain Sample.crypto (Sample.pair input middle output) = (true, -1) := by
  rw [verifyChain_accepts]
  exact ⟨Sample.envelope_verifies _ _ _, rfl, List.cons_ne_nil _ _,
    Sample.envelope_verifies _ _ _, rfl, List.cons_ne_nil _ _, trivial⟩

theorem verifyChain_linear_sample :
    verifyChain Sample.crypto (Sample.pair "A" "B" "C") = (true, -1) ∧
      LinearVerdict Sample.crypto (Sample.pair "A" "B" "C") := by
  refine ⟨Sample.pair_chain _ _ _, (verifyChain_linear_iff Sample.blake3_injective _
    (Sample.pair_chain _ _ _)).mpr ?_⟩
  intro ⟨front, env, back, split, input, named, later, inBack, output, _⟩
  rcases front with _ | ⟨first, _ | ⟨second, front⟩⟩
  · simp only [Sample.pair, List.nil_append, List.cons.injEq] at split
    rcases split with ⟨rfl, rfl⟩
    have laterOutput : later.outputHash = "C" := by
      rw [List.mem_singleton.mp inBack]
      rfl
    have envInput : input = "A" := List.mem_singleton.mp named
    rw [laterOutput, envInput] at output
    exact absurd output (by decide)
  · simp only [Sample.pair, List.cons_append, List.nil_append, List.cons.injEq] at split
    rw [← split.2.2] at inBack
    cases inBack
  · have lengths := congrArg List.length split
    simp [Sample.pair] at lengths

/-- A step that restores its predecessor's input is a valid chain and a cyclic DAG. -/
theorem verifyChain_not_linear :
    verifyChain Sample.crypto (Sample.pair "A" "B" "A") = (true, -1) ∧
      ¬ LinearVerdict Sample.crypto (Sample.pair "A" "B" "A") := by
  refine ⟨Sample.pair_chain _ _ _, not_linear_of_readsLater Sample.blake3_injective
    ((verifyChain_accepts _).mp (Sample.pair_chain _ _ _)) ?_⟩
  refine ⟨[], _, _, rfl, "A", List.mem_singleton.mpr rfl, _, List.mem_singleton.mpr rfl, rfl, ?_⟩
  intro other member output
  rcases List.mem_pair.mp member with rfl | rfl
  · have first : (Sample.envelope ["A"] "B" none).outputHash = "B" := rfl
    rw [first] at output
    exact absurd output (by decide)
  · exact le_refl _

end Gyza

import Gyza.CorpusDigest
import Gyza.EpisodicMemory

/-! What an agent says it retrieved from its memory: `retrieve_similar` of `gyza/memory.py`
over the SQLite backend, and `RetrievalClaim` and `verify_retrieval_claim` of
`gyza/verification/respec.py`.

Embeddings are float32 bytes. `unit` scales one to length one and `dot` multiplies two; both
are parameters, and the scores are compared exactly. -/

namespace Gyza.Memory

open Hex (Bytes)
open CorpusDigest (Item corpusSnapshotDigest)

def metricCosineUnit : String := "cosine_unit"

def filterSuccessOnly : String := "success_only"

def filterNone : String := "none"

inductive IncompleteClaim where
  | notNamed (missing : List String)
  | unknownMetric (metric : String)
  | unknownFilter (filterPredicate : String)
  | badK (k : Int)
  | thresholdOutOfRange (threshold : ℚ)
  | tooManyIds (returned : Nat) (k : Int)
  deriving DecidableEq

structure RetrievalClaim where
  corpusSnapshot : String
  metric : String
  k : Int
  threshold : ℚ
  filterPredicate : String
  returnedIds : List String
  deriving DecidableEq

/-- `__post_init__`. -/
def RetrievalClaim.postInit (claim : RetrievalClaim) : Except IncompleteClaim RetrievalClaim :=
  let missing := ([("corpus_snapshot", claim.corpusSnapshot), ("metric", claim.metric),
    ("filter_predicate", claim.filterPredicate)].filter fun named => named.2 = "").map (·.1)
  if missing ≠ [] then .error (.notNamed missing)
  else if claim.metric ≠ metricCosineUnit then .error (.unknownMetric claim.metric)
  else if claim.filterPredicate ≠ filterSuccessOnly ∧ claim.filterPredicate ≠ filterNone then
    .error (.unknownFilter claim.filterPredicate)
  else if claim.k ≤ 0 then .error (.badK claim.k)
  else if ¬ (-1 ≤ claim.threshold ∧ claim.threshold ≤ 1) then
    .error (.thresholdOutOfRange claim.threshold)
  else if claim.k < claim.returnedIds.length then
    .error (.tooManyIds claim.returnedIds.length claim.k)
  else .ok claim

/-- `(-similarity, episode_id)`. -/
def rankKey (scored : String × ℚ) : ℚ ×ₗ String := toLex (-scored.2, scored.1)

section Retrieval

variable (crypto : Crypto) (unit : Bytes → Bytes) (dot : Bytes → Bytes → ℚ)

/-- The rows of this agent, newest first. -/
def EpisodicMemory.allForAgent (memory : EpisodicMemory) : List Episode :=
  KeyedSort.sortBy (fun episode => -episode.timestampNs)
    (memory.table.allForAgent memory.agentId)

def EpisodicMemory.count (memory : EpisodicMemory) : Nat :=
  (memory.table.allForAgent memory.agentId).length

def Episode.similarity (query : Bytes) (episode : Episode) : ℚ :=
  dot query (unit episode.taskEmbedding)

def EpisodicMemory.ranked (memory : EpisodicMemory) (query : Bytes) : List (Episode × ℚ) :=
  KeyedSort.sortBy (fun scored => rankKey (scored.1.episodeId, scored.2))
    (memory.allForAgent.map fun episode => (episode, episode.similarity unit dot query))

/-- The loop over the ranked episodes. -/
def collect (k : Int) (minSimilarity : ℚ) (successOnly : Bool) :
    List (Episode × ℚ) → List Episode → List Episode
  | [], results => results
  | (episode, sim) :: rest, results =>
      if sim < minSimilarity then collect k minSimilarity successOnly rest results
      else if successOnly ∧ ¬ episode.success then
        collect k minSimilarity successOnly rest results
      else if k ≤ (results ++ [episode]).length then results ++ [episode]
      else collect k minSimilarity successOnly rest (results ++ [episode])

/-- `flush` of a thread that no other thread runs beside. -/
def EpisodicMemory.flushAlone (memory : EpisodicMemory) : EpisodicMemory :=
  if memory.buffer = [] then memory
  else { memory with buffer := [], table := memory.table.add memory.buffer }

def EpisodicMemory.corpus (memory : EpisodicMemory) : List (Item Bytes) :=
  memory.allForAgent.map fun episode =>
    ⟨episode.episodeId, episode.taskEmbedding, episode.success⟩

/-- `embedded` is the normalized embedding of the task, none without an encoder. -/
def EpisodicMemory.retrieveSimilar (memory : EpisodicMemory) (embedded : Option Bytes) (k : Int)
    (minSimilarity : ℚ) (successOnly : Bool) : EpisodicMemory × List Episode :=
  let memory := memory.flushAlone
  if memory.count = 0 then (memory, [])
  else
    match embedded with
    | none => (memory, [])
    | some query =>
        (memory, collect k minSimilarity successOnly (memory.ranked unit dot query) [])

/-- None where the digest raises. -/
def EpisodicMemory.buildRetrievalClaim (memory : EpisodicMemory) (results : List Episode)
    (k : Int) (minSimilarity : ℚ) (successOnly : Bool) :
    Option (Except IncompleteClaim RetrievalClaim) :=
  (corpusSnapshotDigest crypto id memory.corpus).map fun digest =>
    RetrievalClaim.postInit
      { corpusSnapshot := digest
        metric := metricCosineUnit
        k := k
        threshold := minSimilarity
        filterPredicate := if successOnly then filterSuccessOnly else filterNone
        returnedIds := results.map Episode.episodeId }

/-- The scored candidates that pass the filter. -/
def scoredCandidates (claim : RetrievalClaim) (candidates : List (Item Bytes)) (query : Bytes) :
    List (String × ℚ) :=
  ((candidates.filter fun item => ¬ (claim.filterPredicate = filterSuccessOnly ∧ ¬ item.ok)).map
    fun item => (item.eid, dot (unit query) (unit item.vec))).filter
      fun scored => claim.threshold - 1 / 10 ^ 9 ≤ scored.2

def verifyRetrievalClaim (claim : RetrievalClaim) (candidates : List (Item Bytes))
    (query : Bytes) : Option Bool :=
  (corpusSnapshotDigest crypto id candidates).map fun digest =>
    decide (digest = claim.corpusSnapshot) &&
      decide (((KeyedSort.sortBy rankKey (scoredCandidates unit dot claim candidates query)).map
        (·.1)).take claim.k.toNat = claim.returnedIds)

end Retrieval

theorem rankKey_injective : Function.Injective rankKey := by
  intro left right same
  have parts := toLex.injective same
  rw [Prod.mk.injEq] at parts
  exact Prod.ext parts.2 (neg_inj.mp parts.1)

theorem postInit_ok {claim built : RetrievalClaim} (ok : claim.postInit = .ok built) :
    built = claim ∧ 0 < claim.k := by
  unfold RetrievalClaim.postInit at ok
  simp only at ok
  split_ifs at ok with named metric filter small threshold many
  exact ⟨(Except.ok.inj ok).symm, not_le.mp small⟩

/-- What the loop keeps: the first `k` of the ranked episodes that qualify. -/
theorem collect_eq {k : Int} {minSimilarity : ℚ} {successOnly : Bool}
    (ranked : List (Episode × ℚ)) (results : List Episode) (room : results.length < k) :
    collect k minSimilarity successOnly ranked results =
      results ++ (((ranked.filter fun scored => ¬ (successOnly ∧ ¬ scored.1.success)).filter
        fun scored => minSimilarity ≤ scored.2).map (·.1)).take (k.toNat - results.length) := by
  induction ranked generalizing results with
  | nil => simp [collect]
  | cons scored rest ih =>
      obtain ⟨episode, sim⟩ := scored
      by_cases failed : successOnly ∧ ¬ episode.success
      · have left_out : collect k minSimilarity successOnly ((episode, sim) :: rest) results =
            collect k minSimilarity successOnly rest results := by
          rw [collect, if_pos failed, ite_self]
        rw [left_out, ih results room, List.filter_cons_of_neg (by simpa using failed)]
      · have passes : ((episode, sim) :: rest).filter
            (fun scored => ¬ (successOnly ∧ ¬ scored.1.success)) =
              (episode, sim) :: rest.filter fun scored => ¬ (successOnly ∧ ¬ scored.1.success) :=
          List.filter_cons_of_pos (decide_eq_true failed)
        rw [collect, if_neg failed, passes]
        split_ifs with low full
        · rw [ih results room, List.filter_cons_of_neg (by simpa using low)]
        · have last : k.toNat - results.length = 0 + 1 := by
            rw [List.length_append, List.length_singleton] at full
            omega
          rw [List.filter_cons_of_pos (by simpa using low), List.map_cons, last,
            List.take_succ_cons, List.take_zero]
        · have more : (results ++ [episode]).length < k := not_le.mp full
          have next : k.toNat - results.length = k.toNat - (results ++ [episode]).length + 1 := by
            rw [List.length_append, List.length_singleton] at more ⊢
            omega
          rw [ih _ more, next, List.filter_cons_of_pos (by simpa using low), List.map_cons,
            List.take_succ_cons, List.append_assoc, List.singleton_append]

theorem take_append_eq_iff {α : Type} (front back : List α) (n : Nat) :
    (front ++ back).take n = front.take n ↔ n ≤ front.length ∨ back = [] := by
  rw [List.take_append, List.append_right_eq_self, List.take_eq_nil_iff]
  constructor
  · rintro (none | none)
    · exact Or.inl (by omega)
    · exact Or.inr none
  · rintro (short | none)
    · exact Or.inl (by omega)
    · exact Or.inr none

section Claims

variable {crypto : Crypto} {unit : Bytes → Bytes} {dot : Bytes → Bytes → ℚ}

/-- The ids and scores of the episodes that pass the filter, in the order of the ranks. -/
def EpisodicMemory.scored (unit : Bytes → Bytes) (dot : Bytes → Bytes → ℚ)
    (memory : EpisodicMemory) (successOnly : Bool) (query : Bytes) : List (String × ℚ) :=
  KeyedSort.sortBy rankKey
    ((memory.allForAgent.filter fun episode => ¬ (successOnly ∧ ¬ episode.success)).map
      fun episode => (episode.episodeId, episode.similarity unit dot query))

theorem map_ranked (memory : EpisodicMemory) (successOnly : Bool) (query : Bytes) :
    ((memory.ranked unit dot query).filter
        fun scored => ¬ (successOnly ∧ ¬ scored.1.success)).map
          (fun scored => (scored.1.episodeId, scored.2)) =
      memory.scored unit dot successOnly query := by
  refine KeyedSort.eq_sortBy rankKey_injective ?_ ?_
  · have rows := KeyedSort.sortBy_perm (fun scored => rankKey (scored.1.episodeId, scored.2))
      (memory.allForAgent.map fun episode => (episode, episode.similarity unit dot query))
    have passing := (rows.filter fun scored => ¬ (successOnly ∧ ¬ scored.1.success)).map
      fun scored => (scored.1.episodeId, scored.2)
    rw [List.filter_map, List.map_map] at passing
    exact passing
  · rw [List.pairwise_map]
    exact (KeyedSort.sortBy_pairwise _ _).filter _

theorem retrieved_ids (memory : EpisodicMemory) {k : Int} (positive : 0 < k)
    (minSimilarity : ℚ) (successOnly : Bool) (query : Bytes) :
    (collect k minSimilarity successOnly (memory.ranked unit dot query) []).map
        Episode.episodeId =
      (((memory.scored unit dot successOnly query).filter
        fun scored => minSimilarity ≤ scored.2).map (·.1)).take k.toNat := by
  have room : (([] : List Episode).length : Int) < k := positive
  rw [collect_eq _ _ room, ← map_ranked, List.nil_append, List.map_take, List.map_map,
    List.filter_map, List.map_map, List.length_nil, Nat.sub_zero]
  rfl

/-- Corpora with one digest hold the same items. -/
theorem perm_of_digest (ideal : Function.Injective crypto.blake3)
    {candidates corpus : List (Item Bytes)} {digest : String}
    (first : corpusSnapshotDigest crypto id candidates = some digest)
    (second : corpusSnapshotDigest crypto id corpus = some digest) :
    candidates.Perm corpus := by
  obtain ⟨text, written, hashed⟩ := Option.map_eq_some_iff.mp first
  obtain ⟨text', written', hashed'⟩ := Option.map_eq_some_iff.mp second
  have same : text = text' := crypto.hexdigest_injective ideal (hashed.trans hashed'.symm)
  subst same
  rw [CorpusDigest.preimage_eq] at written written'
  have sorted := PrefixCode.encodeAll_injective CorpusDigest.updates_prefixFree
    CorpusDigest.updates_ne_nil written written'
  have triple_injective :
      Function.Injective (CorpusDigest.triple id : Item Bytes → Bytes × Bytes × Bool) := by
    intro left right same
    simp only [CorpusDigest.triple, Prod.mk.injEq, id] at same
    obtain ⟨ids, vectors, flags⟩ := same
    cases left
    cases right
    simp_all [Hex.utf8_injective.eq_iff]
  have items := List.map_injective_iff.mpr triple_injective sorted
  exact (KeyedSort.sortBy_perm Item.eid candidates).symm.trans
    (items ▸ KeyedSort.sortBy_perm Item.eid corpus)

theorem sorted_candidates (memory : EpisodicMemory) {claim : RetrievalClaim}
    {candidates : List (Item Bytes)} {query : Bytes} {successOnly : Bool}
    (filter : claim.filterPredicate = if successOnly then filterSuccessOnly else filterNone)
    (normalized : unit query = query) (same : candidates.Perm memory.corpus) :
    KeyedSort.sortBy rankKey (scoredCandidates unit dot claim candidates query) =
      (memory.scored unit dot successOnly query).filter
        fun scored => claim.threshold - 1 / 10 ^ 9 ≤ scored.2 := by
  have success : claim.filterPredicate = filterSuccessOnly ↔ successOnly := by
    rw [filter]
    cases successOnly <;> decide
  have passing := (same.filter fun item =>
    ¬ (claim.filterPredicate = filterSuccessOnly ∧ ¬ item.ok)).map
      fun item => (item.eid, dot (unit query) (unit item.vec))
  simp only [success, normalized] at passing
  rw [EpisodicMemory.corpus, List.filter_map, List.map_map] at passing
  rw [scoredCandidates, ← KeyedSort.filter_sortBy rankKey_injective]
  simp only [success, normalized]
  rw [KeyedSort.sortBy_eq_of_perm rankKey_injective passing]
  rfl

end Claims

/-! One episode, just below the threshold. -/

namespace Sample

def nearMiss : Episode := episode "ep" true

def memory : EpisodicMemory :=
  { agentId := "agent", table := EpisodeTable.add Table.empty [nearMiss] }

def dot (_ _ : Bytes) : ℚ := 3 / 4 - 1 / 10 ^ 10

def claim : RetrievalClaim where
  corpusSnapshot := (corpusSnapshotDigest Sample.crypto id memory.corpus).getD ""
  metric := metricCosineUnit
  k := 5
  threshold := 3 / 4
  filterPredicate := filterSuccessOnly
  returnedIds := []

theorem built : memory.buildRetrievalClaim Sample.crypto
    (collect 5 (3 / 4) true (memory.ranked id dot [1]) []) 5 (3 / 4) true =
      some (.ok claim) := by
  decide +kernel

theorem snapshot : corpusSnapshotDigest Sample.crypto id memory.corpus =
    some claim.corpusSnapshot := by
  decide +kernel

theorem corpus_rows : memory.allForAgent = [nearMiss] := by decide +kernel

end Sample

end Gyza.Memory

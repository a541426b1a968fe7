import Gyza.DhtRecords
import Gyza.Lib.Dedup

/-! Finding agents by embedding: `FindAgents` of `internal/dht/dht.go`. -/

namespace Gyza

open Hex (Bytes)

def Lsh.bits : Nat := 64

def Lsh.embeddingDim : Nat := 384

def bucketSize : Nat := 20

/-- `float32` values, four little-endian bytes each. -/
def decodeF32LE : Bytes → Option (List Float32)
  | [] => some []
  | b0 :: b1 :: b2 :: b3 :: rest =>
      let bits := b0.toUInt32 ||| (b1.toUInt32 <<< 8) ||| (b2.toUInt32 <<< 16) |||
        (b3.toUInt32 <<< 24)
      (decodeF32LE rest).map (Float32.ofBits bits :: ·)
  | _ => none

def cosineStep (sums : Float × Float × Float) (entry : Float32 × Float32) :
    Float × Float × Float :=
  let af := entry.1.toFloat
  let bf := entry.2.toFloat
  (sums.1 + af * bf, sums.2.1 + af * af, sums.2.2 + bf * bf)

def cosine (a b : List Float32) : Float :=
  if a.length ≠ b.length then 0
  else
    let sums := (a.zip b).foldl cosineStep (0, 0, 0)
    if sums.2.1 == 0 || sums.2.2 == 0 then 0
    else sums.1 / (Float.sqrt sums.2.1 * Float.sqrt sums.2.2)

/-- `LSHIndex.Hash`: the signs of the dot products with the planes, plane 0 first. -/
def lshHash (planes : List (List Float32)) (embedding : List Float32) : UInt64 :=
  if embedding.length ≠ Lsh.embeddingDim then 0
  else
    planes.zipIdx.foldl (fun (bucket : UInt64) row =>
      let dot : Float32 := (row.1.zip embedding).foldl (fun sum entry => sum + entry.1 * entry.2) 0
      if 0 < dot then bucket ||| ((1 : UInt64) <<< (63 - row.2.toUInt64)) else bucket) 0

/-- The choices of `size` positions, in the order of `itertools.combinations`. -/
def combinations : Nat → List Nat → List (List Nat)
  | 0, _ => [[]]
  | _ + 1, [] => []
  | size + 1, position :: rest =>
      (combinations size rest).map (position :: ·) ++ combinations (size + 1) rest

def bitMask (positions : List Nat) : UInt64 :=
  positions.foldl (fun (mask : UInt64) position => mask ||| ((1 : UInt64) <<< position.toUInt64)) 0

def hammingNeighbors (bucket : UInt64) (radius : Nat) : List UInt64 :=
  bucket :: (List.range' 1 (min radius Lsh.bits)).flatMap fun size =>
    (combinations size (List.range Lsh.bits)).map fun positions => bucket ^^^ bitMask positions

theorem hammingNeighbors_cons (bucket : UInt64) (radius : Nat) :
    ∃ others, hammingNeighbors bucket radius = bucket :: others :=
  ⟨_, rfl⟩

/-- Sixteen hexadecimal digits after the prefix, the highest first. -/
def agentDHTKey (bucket : UInt64) : Bytes :=
  Hex.utf8 "/gyza/agents/" ++ Hex.utf8 (String.ofList ((List.range 16).map fun position =>
    Hex.digitChar (bucket.toNat / 16 ^ (15 - position) % 16)))

theorem decodeF32LE_dims (bytes : Bytes) (dims : Nat) :
    (∃ emb, decodeF32LE bytes = some emb ∧ emb.length = dims) ↔ bytes.length = 4 * dims := by
  induction bytes using decodeF32LE.induct generalizing dims with
  | case1 =>
      simp [decodeF32LE, eq_comm]
  | case2 b0 b1 b2 b3 rest ih =>
      cases dims with
      | zero => simp [decodeF32LE]
      | succ dims =>
          have tail := ih dims
          simp only [decodeF32LE, Option.map_eq_some_iff, List.length_cons]
          constructor
          · rintro ⟨_, ⟨emb, decoded, rfl⟩, length⟩
            have counted := tail.mp ⟨emb, decoded, by simpa using length⟩
            omega
          · intro length
            rcases tail.mpr (by omega) with ⟨emb, decoded, counted⟩
            exact ⟨_, ⟨emb, decoded, rfl⟩, by simp [counted]⟩
  | case3 bytes short long =>
      simp only [decodeF32LE, reduceCtorEq, false_and, exists_false, false_iff]
      intro length
      rcases bytes with _ | ⟨b0, _ | ⟨b1, _ | ⟨b2, _ | ⟨b3, rest⟩⟩⟩⟩
      · exact short rfl
      · simp only [List.length_cons, List.length_nil] at length
        omega
      · simp only [List.length_cons, List.length_nil] at length
        omega
      · simp only [List.length_cons, List.length_nil] at length
        omega
      · exact long b0 b1 b2 b3 rest rfl

structure Scored where
  ad : AgentAdvertisement
  score : Float

/-- `sort.Slice`, which may leave equal elements in any order. -/
structure SliceSort where
  sort : (Scored → Scored → Bool) → List Scored → List Scored
  perm : ∀ less items, (sort less items).Perm items

/-- What a search reads: the local advertisements in the order the map gives them,
the DHT, and the answers of the attestation verifier when there is one. -/
structure DiscoveryNode where
  planes : List (List Float32)
  codec : RecordCodec
  localAds : List (Option AgentAdvertisement)
  getValue : Bytes → Option Bytes
  verifier : Option (String → Bool)

structure AgentQuery where
  queryEmbedding : List Float32
  k : Int
  minTier : Int
  minReputation : Float

inductive FindError where
  | queryDims (dims : Nat)
  deriving DecidableEq

abbrev Search := Dedup.Scan String Scored

section FindAgents

variable (node : DiscoveryNode) (query : AgentQuery)

def consumeAd (search : Search) (entry : Option AgentAdvertisement) : Search :=
  match entry with
  | none => search
  | some ad =>
      if ad.attestationTier < query.minTier then search
      else if ad.reputationScore < query.minReputation then search
      else if ad.agentPubkey ∈ search.seen then search
      else
        let marked := { search with seen := ad.agentPubkey :: search.seen }
        match decodeF32LE ad.specializationEmbedding with
        | none => marked
        | some emb =>
            if emb.length ≠ Lsh.embeddingDim then marked
            else { marked with
              kept := search.kept ++ [{ ad := ad, score := cosine query.queryEmbedding emb }] }

def consume (search : Search) (advs : List (Option AgentAdvertisement)) : Search :=
  advs.foldl (consumeAd query) search

def consumeBucket (search : Search) (neighbor : UInt64) : Search :=
  match node.getValue (agentDHTKey neighbor) with
  | none => search
  | some value =>
      match node.codec.agentBucket value with
      | none => search
      | some bucket => consume query search bucket.advertisements

def searchNeighbors : Search :=
  let neighbors := hammingNeighbors (lshHash node.planes query.queryEmbedding) 2
  neighbors.foldl (consumeBucket node query) (consume query Dedup.Scan.empty node.localAds)

/-- The candidates whose compositor the verifier accepts, when the query asks for it. -/
def verifiedCandidates (candidates : List Scored) : List Scored :=
  if issuedTier ≤ query.minTier then
    match node.verifier with
    | none => candidates
    | some verify => candidates.filter fun candidate => verify candidate.ad.compositorPubkey
  else candidates

def resultLimit (k : Int) : Nat := if k ≤ 0 then bucketSize else k.toNat

def findAgents (sorting : SliceSort) : Except FindError (List AgentAdvertisement) :=
  if query.queryEmbedding.length ≠ Lsh.embeddingDim then
    .error (.queryDims query.queryEmbedding.length)
  else
    let candidates := sorting.sort (fun left right => right.score < left.score)
      (searchNeighbors node query).kept
    .ok (((verifiedCandidates node query candidates).take (resultLimit query.k)).map Scored.ad)

def bucketAds (neighbor : UInt64) : List (Option AgentAdvertisement) :=
  match node.getValue (agentDHTKey neighbor) with
  | none => []
  | some value =>
      match node.codec.agentBucket value with
      | none => []
      | some bucket => bucket.advertisements

/-- Every advertisement a search meets, in the order it meets them. -/
def metAds : List AgentAdvertisement :=
  (node.localAds ++ (hammingNeighbors (lshHash node.planes query.queryEmbedding) 2).flatMap
    (bucketAds node)).filterMap id

/-- The filter on self-reported tier and reputation. -/
def passesFilter (ad : AgentAdvertisement) : Bool :=
  ¬ad.attestationTier < query.minTier ∧ ¬ad.reputationScore < query.minReputation

def scoreAd (ad : AgentAdvertisement) : Option Scored :=
  match decodeF32LE ad.specializationEmbedding with
  | none => none
  | some emb =>
      if emb.length ≠ Lsh.embeddingDim then none
      else some { ad := ad, score := cosine query.queryEmbedding emb }

theorem scoreAd_ad {ad : AgentAdvertisement} {scored : Scored}
    (usable : scoreAd query ad = some scored) : scored.ad = ad := by
  unfold scoreAd at usable
  split at usable
  · cases usable
  · split_ifs at usable
    rw [← Option.some.inj usable]

theorem consumeAd_eq_next (search : Search) (ad : AgentAdvertisement) :
    consumeAd query search (some ad) =
      if passesFilter query ad = true then
        Dedup.next AgentAdvertisement.agentPubkey (scoreAd query) search ad
      else search := by
  unfold consumeAd passesFilter
  dsimp only
  by_cases tier : ad.attestationTier < query.minTier
  · simp [tier]
  · by_cases reputation : ad.reputationScore < query.minReputation
    · simp [tier, reputation]
    · simp only [tier, reputation, if_false, not_false_eq_true, and_self, decide_true, if_true,
        Dedup.next]
      by_cases seen : ad.agentPubkey ∈ search.seen
      · rw [if_pos seen, if_pos seen]
      · rw [if_neg seen, if_neg seen]
        unfold scoreAd
        cases decodeF32LE ad.specializationEmbedding with
        | none => simp
        | some emb =>
            by_cases dims : emb.length = Lsh.embeddingDim
            · simp [dims]
            · simp [dims]

theorem consume_eq_scan (advs : List (Option AgentAdvertisement)) (search : Search) :
    consume query search advs =
      ((advs.filterMap id).filter (passesFilter query)).foldl
        (Dedup.next AgentAdvertisement.agentPubkey (scoreAd query)) search := by
  induction advs generalizing search with
  | nil => rfl
  | cons entry rest ih =>
      unfold consume at ih ⊢
      rw [List.foldl_cons, ih]
      cases entry with
      | none => rfl
      | some ad =>
          rw [consumeAd_eq_next]
          by_cases passes : passesFilter query ad = true
          · simp [passes]
          · simp [passes]

theorem consumeBucket_eq (search : Search) (neighbor : UInt64) :
    consumeBucket node query search neighbor =
      consume query search (bucketAds node neighbor) := by
  unfold consumeBucket bucketAds
  cases node.getValue (agentDHTKey neighbor) with
  | none => rfl
  | some value =>
      dsimp only
      cases node.codec.agentBucket value with
      | none => rfl
      | some bucket => rfl

theorem consume_append (search : Search) (front back : List (Option AgentAdvertisement)) :
    consume query search (front ++ back) = consume query (consume query search front) back := by
  unfold consume
  rw [List.foldl_append]

theorem searchNeighbors_eq_scan :
    searchNeighbors node query =
      ((metAds node query).filter (passesFilter query)).foldl
        (Dedup.next AgentAdvertisement.agentPubkey (scoreAd query)) Dedup.Scan.empty := by
  have walk : ∀ (neighbors : List UInt64) (search : Search),
      neighbors.foldl (consumeBucket node query) search =
        consume query search (neighbors.flatMap (bucketAds node)) := by
    intro neighbors
    induction neighbors with
    | nil => exact fun _ => rfl
    | cons neighbor rest ih =>
        intro search
        rw [List.foldl_cons, ih, consumeBucket_eq, List.flatMap_cons, consume_append]
  unfold searchNeighbors metAds
  dsimp only
  rw [walk, ← consume_append, consume_eq_scan]

/-- An embedding of the right size, and a compositor the verifier accepts when the
query asks for one. -/
def UsableAd (ad : AgentAdvertisement) : Prop :=
  (∃ emb, decodeF32LE ad.specializationEmbedding = some emb ∧ emb.length = Lsh.embeddingDim) ∧
    (issuedTier ≤ query.minTier →
      ∀ verify, node.verifier = some verify → verify ad.compositorPubkey = true)

/-- The first advertisement for the agent that passes the filter, which hides the others. -/
def firstPassing (agent : String) : Option AgentAdvertisement :=
  Dedup.first AgentAdvertisement.agentPubkey ((metAds node query).filter (passesFilter query)) agent

def EligibleAgent (agent : String) : Prop :=
  ∃ ad ∈ metAds node query, ad.agentPubkey = agent ∧ query.minTier ≤ ad.attestationTier ∧
    query.minReputation ≤ ad.reputationScore ∧ UsableAd node query ad

def FoundAgent (sorting : SliceSort) (agent : String) : Prop :=
  ∃ ads, findAgents node query sorting = .ok ads ∧ ∃ ad ∈ ads, ad.agentPubkey = agent

/-- No eligible agent is missing from the answer, and no agent is in it twice. -/
structure DiscoveryComplete (sorting : SliceSort) : Prop where
  finds : ∀ agent, EligibleAgent node query agent → FoundAgent node query sorting agent
  distinct : ∀ ads, findAgents node query sorting = .ok ads →
    (ads.map AgentAdvertisement.agentPubkey).Nodup

theorem scoreAd_isSome_iff (ad : AgentAdvertisement) :
    (∃ scored, scoreAd query ad = some scored) ↔
      ∃ emb, decodeF32LE ad.specializationEmbedding = some emb ∧ emb.length = Lsh.embeddingDim := by
  unfold scoreAd
  cases decodeF32LE ad.specializationEmbedding with
  | none => simp
  | some emb =>
      by_cases dims : emb.length = Lsh.embeddingDim
      · simp [dims]
      · simp [dims]

theorem mem_verifiedCandidates (candidates : List Scored) (candidate : Scored) :
    candidate ∈ verifiedCandidates node query candidates ↔
      candidate ∈ candidates ∧ (issuedTier ≤ query.minTier →
        ∀ verify, node.verifier = some verify →
          verify candidate.ad.compositorPubkey = true) := by
  unfold verifiedCandidates
  by_cases asked : issuedTier ≤ query.minTier
  · rw [if_pos asked]
    cases node.verifier with
    | none => simp
    | some verify => simp [asked]
  · simp [asked]

theorem verifiedCandidates_sublist (candidates : List Scored) :
    (verifiedCandidates node query candidates).Sublist candidates := by
  unfold verifiedCandidates
  split
  · split
    · exact List.Sublist.refl _
    · exact List.filter_sublist
  · exact List.Sublist.refl _

/-- The candidates are what the first passing advertisement of each agent gives. -/
theorem mem_candidates_iff (candidate : Scored) :
    candidate ∈ (searchNeighbors node query).kept ↔
      ∃ agent ad, firstPassing node query agent = some ad ∧ scoreAd query ad = some candidate := by
  rw [searchNeighbors_eq_scan, Dedup.mem_kept_iff]
  simp [Dedup.Scan.empty, firstPassing]

theorem candidates_nodup :
    ((searchNeighbors node query).kept.map fun candidate => candidate.ad.agentPubkey).Nodup := by
  rw [searchNeighbors_eq_scan]
  apply Dedup.kept_nodup
  · intro ad scored usable
    rw [scoreAd_ad query usable]
  · intro scored member
    exact absurd member List.not_mem_nil
  · exact List.nodup_nil

theorem findAgents_distinct {sorting : SliceSort} {ads : List AgentAdvertisement}
    (found : findAgents node query sorting = .ok ads) :
    (ads.map AgentAdvertisement.agentPubkey).Nodup := by
  unfold findAgents at found
  split_ifs at found
  rw [← Except.ok.inj found, List.map_map]
  refine List.Nodup.sublist (List.Sublist.map _ ((List.take_sublist _ _).trans
    (verifiedCandidates_sublist node query _))) ?_
  exact ((sorting.perm _ _).map _).nodup_iff.mpr (candidates_nodup node query)

/-- With room for all candidates, an agent is found exactly when the query has the
right size and the first passing advertisement for the agent is usable. -/
theorem foundAgent_iff (sorting : SliceSort)
    (room : (searchNeighbors node query).kept.length ≤ resultLimit query.k) (agent : String) :
    FoundAgent node query sorting agent ↔
      query.queryEmbedding.length = Lsh.embeddingDim ∧
        ∃ ad, firstPassing node query agent = some ad ∧ UsableAd node query ad := by
  unfold FoundAgent findAgents
  by_cases dims : query.queryEmbedding.length = Lsh.embeddingDim
  · have perm := sorting.perm (fun left right => decide (right.score < left.score))
      (searchNeighbors node query).kept
    have whole : (verifiedCandidates node query (sorting.sort
        (fun left right => decide (right.score < left.score))
        (searchNeighbors node query).kept)).length ≤ resultLimit query.k :=
      (verifiedCandidates_sublist node query _).length_le.trans (perm.length_eq.le.trans room)
    simp only [dims, ne_eq, not_true_eq_false, if_false, Except.ok.injEq, exists_eq_left', true_and]
    rw [List.take_of_length_le whole]
    simp only [List.mem_map, exists_exists_and_eq_and, mem_verifiedCandidates, perm.mem_iff,
      mem_candidates_iff]
    constructor
    · rintro ⟨candidate, ⟨⟨named, ad, first, scored⟩, accepted⟩, named'⟩
      have same := scoreAd_ad query scored
      have key := Dedup.key_of_first _ first
      rw [same] at accepted named'
      rw [key] at named'
      subst named'
      exact ⟨ad, first, (scoreAd_isSome_iff query ad).mp ⟨candidate, scored⟩, accepted⟩
    · rintro ⟨ad, first, embedding, accepted⟩
      rcases (scoreAd_isSome_iff query ad).mpr embedding with ⟨candidate, scored⟩
      have same := scoreAd_ad query scored
      refine ⟨candidate, ⟨⟨agent, ad, first, scored⟩, ?_⟩, ?_⟩
      · rwa [same]
      · rw [same]
        exact Dedup.key_of_first _ first
  · simp [dims]

/-- Discovery is complete exactly when no eligible agent is hidden behind an
unusable advertisement that claims its key and is met first. -/
theorem discovery_complete_iff (sorting : SliceSort)
    (room : (searchNeighbors node query).kept.length ≤ resultLimit query.k) :
    DiscoveryComplete node query sorting ↔
      ∀ agent, EligibleAgent node query agent →
        query.queryEmbedding.length = Lsh.embeddingDim ∧
          ∃ ad, firstPassing node query agent = some ad ∧ UsableAd node query ad := by
  constructor
  · intro complete agent eligible
    exact (foundAgent_iff node query sorting room agent).mp (complete.finds agent eligible)
  · intro unhidden
    constructor
    · intro agent eligible
      exact (foundAgent_iff node query sorting room agent).mpr (unhidden agent eligible)
    · intro ads found
      exact findAgents_distinct node query found

end FindAgents

/-! An agent's advertisement, and another that claims its key without an embedding. -/

namespace Masking

def mergeSorting : SliceSort where
  sort := fun less items => items.mergeSort fun left right => !less right left
  perm := fun _ items => List.mergeSort_perm items _

def honest : AgentAdvertisement where
  agentPubkey := "a1"
  compositorPubkey := "c1"
  specializationEmbedding := List.replicate 1536 0
  attestationTier := 2
  reputationScore := 0

def hostile : AgentAdvertisement where
  agentPubkey := "a1"
  compositorPubkey := "c2"
  specializationEmbedding := []
  attestationTier := 2
  reputationScore := 0

def query : AgentQuery where
  queryEmbedding := List.replicate 384 0
  k := 20
  minTier := 1
  minReputation := 0

/-- A node without advertisements of its own, whose buckets all hold one record. -/
def nodeWith (ads : List (Option AgentAdvertisement)) : DiscoveryNode where
  planes := []
  codec := { emptyMessages with
    agentBucket := fun _ => some { advertisements := ads, lastUpdatedNs := 0 } }
  localAds := []
  getValue := fun _ => some [1]
  verifier := none

theorem metAds_nodeWith (ads : List (Option AgentAdvertisement)) :
    ∃ neighbors : List UInt64, metAds (nodeWith ads) query =
      ads.filterMap id ++ neighbors.flatMap fun _ => ads.filterMap id := by
  rcases hammingNeighbors_cons (lshHash (nodeWith ads).planes query.queryEmbedding) 2 with
    ⟨others, split⟩
  have none_local : (nodeWith ads).localAds = [] := rfl
  have bucket : bucketAds (nodeWith ads) = fun _ => ads := rfl
  refine ⟨others, ?_⟩
  rw [metAds, split, none_local, bucket, List.nil_append, List.flatMap_cons,
    List.filterMap_append, List.filterMap_flatMap]

theorem honest_passes : passesFilter query honest = true := by decide +kernel

theorem hostile_passes : passesFilter query hostile = true := by decide +kernel

theorem honest_usable (ads : List (Option AgentAdvertisement)) :
    UsableAd (nodeWith ads) query honest := by
  constructor
  · apply (decodeF32LE_dims _ _).mpr
    rw [show honest.specializationEmbedding = List.replicate 1536 0 from rfl, List.length_replicate]
    rfl
  · intro asked
    exact absurd asked (by decide)

theorem honest_eligible {ads : List (Option AgentAdvertisement)} (listed : some honest ∈ ads) :
    EligibleAgent (nodeWith ads) query "a1" := by
  rcases metAds_nodeWith ads with ⟨neighbors, met⟩
  refine ⟨honest, ?_, rfl, by decide, by decide +kernel, honest_usable ads⟩
  rw [met]
  exact List.mem_append_left _ (List.mem_filterMap.mpr ⟨some honest, listed, rfl⟩)

theorem firstPassing_nodeWith {ad : AgentAdvertisement} (passes : passesFilter query ad = true)
    (rest : List (Option AgentAdvertisement)) :
    firstPassing (nodeWith (some ad :: rest)) query ad.agentPubkey = some ad := by
  rcases metAds_nodeWith (some ad :: rest) with ⟨neighbors, met⟩
  unfold firstPassing
  rw [met]
  simp only [List.filterMap_cons_some (show id (some ad) = some ad from rfl), List.cons_append,
    List.filter_cons_of_pos passes]
  exact Dedup.first_cons_of_eq _ _ _

/-- All of the node's advertisements name one agent, so there is one candidate at most. -/
theorem room_nodeWith {ads : List (Option AgentAdvertisement)}
    (named : ∀ ad, some ad ∈ ads → ad.agentPubkey = "a1") :
    (searchNeighbors (nodeWith ads) query).kept.length ≤ resultLimit query.k := by
  have names : ∀ agent ∈ (searchNeighbors (nodeWith ads) query).kept.map
      (fun candidate => candidate.ad.agentPubkey), agent = "a1" := by
    intro agent member
    rcases List.mem_map.mp member with ⟨candidate, kept, rfl⟩
    rcases (mem_candidates_iff _ _ _).mp kept with ⟨wanted, ad, first, scored⟩
    rw [scoreAd_ad query scored]
    rcases metAds_nodeWith ads with ⟨neighbors, met⟩
    have listed := (List.mem_filter.mp (Dedup.mem_of_first _ first)).1
    rw [met, List.mem_append, List.mem_flatMap] at listed
    rcases listed with here | ⟨_, _, here⟩
    · exact named ad (by simpa using here)
    · exact named ad (by simpa using here)
  have single := List.nodup_iff_count_le_one.mp (candidates_nodup (nodeWith ads) query) "a1"
  rw [List.count_eq_length.mpr (fun agent member => (names agent member).symm),
    List.length_map] at single
  exact single.trans (by decide)

end Masking

open Masking in
theorem single_advertisement_found :
    DiscoveryComplete (nodeWith [some honest]) query mergeSorting := by
  apply (discovery_complete_iff (nodeWith [some honest]) query mergeSorting ?_).mpr
  · intro agent eligible
    have named : agent = "a1" := by
      rcases eligible with ⟨ad, listed, rfl, -⟩
      rcases metAds_nodeWith [some honest] with ⟨neighbors, met⟩
      rw [met] at listed
      simp only [List.filterMap_cons_some (show id (some honest) = some honest from rfl),
        List.filterMap_nil, List.mem_append, List.mem_flatMap, List.mem_singleton] at listed
      rcases listed with rfl | ⟨_, _, rfl⟩
      · rfl
      · rfl
    rw [named] at eligible ⊢
    exact ⟨List.length_replicate, honest, firstPassing_nodeWith honest_passes [], honest_usable _⟩
  · apply room_nodeWith
    intro ad listed
    cases List.mem_singleton.mp listed
    rfl

open Masking in
/-- An advertisement without an embedding hides the agent it names. -/
theorem unusable_advertisement_masks :
    (searchNeighbors (nodeWith [some hostile, some honest]) query).kept.length ≤
        resultLimit query.k ∧
      EligibleAgent (nodeWith [some hostile, some honest]) query "a1" ∧
      ¬FoundAgent (nodeWith [some hostile, some honest]) query mergeSorting "a1" := by
  have room : (searchNeighbors (nodeWith [some hostile, some honest]) query).kept.length ≤
      resultLimit query.k := by
    apply room_nodeWith
    intro ad listed
    simp only [List.mem_cons, Option.some.injEq, List.not_mem_nil, or_false] at listed
    rcases listed with rfl | rfl
    · rfl
    · rfl
  refine ⟨room, honest_eligible (by simp), fun found => ?_⟩
  rcases ((foundAgent_iff _ _ _ room "a1").mp found).2 with ⟨ad, first, usable⟩
  have met := firstPassing_nodeWith hostile_passes [some honest]
  rw [show hostile.agentPubkey = "a1" from rfl, first, Option.some.injEq] at met
  rw [met] at usable
  have length := (decodeF32LE_dims _ _).mp usable.1
  exact absurd length (by decide)

end Gyza

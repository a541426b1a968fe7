import Gyza.Discovery
import Gyza.Lib.LatestWins
import Gyza.Lib.Dict
import Gyza.Lib.Run

/-! Publishing and unpublishing agents: `PublishAgent`, `UnpublishAgent` and `mergeBucket` of
`internal/dht/dht.go`, on a DHT that returns what was put last.

The bucket of an advertisement is a hash of its embedding. A node remembers one bucket for
each of its agents, the one it published to last. -/

namespace Gyza.AgentBuckets

open Hex (Bytes)

/-- The fields that publishing reads or writes; the others are carried along. -/
structure AgentAdvertisement (Rest : Type) where
  agentPubkey : String
  specializationEmbedding : Bytes
  lshBucket : Int64
  lastSeen : Int64
  rest : Rest

structure AgentBucket (Rest : Type) where
  lshBucket : UInt64
  advertisements : List (AgentAdvertisement Rest)
  lastUpdatedNs : Int64

/-- `proto.Marshal` and `proto.Unmarshal`. -/
structure BucketCodec (Rest : Type) where
  marshal : AgentBucket Rest → Bytes
  unmarshal : Bytes → Option (AgentBucket Rest)
  unmarshal_marshal : ∀ bucket, unmarshal (marshal bucket) = some bucket
  unmarshal_nil : unmarshal [] = some ⟨0, [], 0⟩

/-- `LSHIndex.Hash` of an embedding that is still in its bytes. -/
structure LSHIndex where
  hash : Bytes → UInt64

def LSHIndex.ofPlanes (planes : List (List Float32)) : LSHIndex where
  hash embedding := ((decodeF32LE embedding).map (lshHash planes)).getD 0

/-- `kad` holds the value put last under a key, and nothing where `GetValue` fails. -/
structure GyzaDHT (Rest : Type) where
  kad : Bytes → Bytes
  localAds : Dict String (AgentAdvertisement Rest)
  localBucket : Dict String UInt64

inductive PublishError where
  | nilAdvertisement
  | notAligned (length : Nat)
  | wrongDims (dims : Nat)
  deriving DecidableEq

inductive UnpublishError where
  | emptyPubkey
  deriving DecidableEq

section Agents

variable {Rest : Type} (lsh : LSHIndex) (codec : BucketCodec Rest)

/-- The advertisements of a stored value; a value that is no bucket has none. -/
def stored (value : Bytes) : List (AgentAdvertisement Rest) :=
  if value = [] then []
  else
    match codec.unmarshal value with
    | some prior => prior.advertisements
    | none => []

/-- The first advertisement of the agent gives way to one that was not seen earlier. -/
def upsert : List (AgentAdvertisement Rest) → AgentAdvertisement Rest →
    List (AgentAdvertisement Rest)
  | [], ad => [ad]
  | e :: others, ad =>
      if e.agentPubkey = ad.agentPubkey then
        if e.lastSeen ≤ ad.lastSeen then ad :: others else e :: others
      else e :: upsert others ad

def mergeBucket (existingValue : Bytes) (ad : AgentAdvertisement Rest) (bucket : UInt64)
    (now : Int64) : AgentBucket Rest :=
  ⟨bucket, upsert (stored codec existingValue) ad, now⟩

def checkAd (ad : Option (AgentAdvertisement Rest)) :
    Except PublishError (AgentAdvertisement Rest) :=
  match ad with
  | none => .error .nilAdvertisement
  | some ad =>
      let length := ad.specializationEmbedding.length
      if length % 4 ≠ 0 then .error (.notAligned length)
      else if length / 4 ≠ Lsh.embeddingDim then .error (.wrongDims (length / 4))
      else .ok ad

def bucketOf (ad : AgentAdvertisement Rest) : UInt64 := lsh.hash ad.specializationEmbedding

/-- The advertisement as it is put. -/
def stamped (ad : AgentAdvertisement Rest) (now : Int64) : AgentAdvertisement Rest :=
  { ad with
    lshBucket := (bucketOf lsh ad).toInt64
    lastSeen := if ad.lastSeen = 0 then now else ad.lastSeen }

def putValue (kad : Bytes → Bytes) (key value : Bytes) : Bytes → Bytes :=
  fun other => if other = key then value else kad other

/-- `seen` and `now` are the two readings of the clock. -/
def publishAgent (dht : GyzaDHT Rest) (ad : Option (AgentAdvertisement Rest)) (seen now : Int64) :
    GyzaDHT Rest × Except PublishError Bytes :=
  match checkAd ad with
  | .error error => (dht, .error error)
  | .ok ad =>
      let bucket := bucketOf lsh ad
      let ad := stamped lsh ad seen
      let key := agentDHTKey bucket
      let merged := mergeBucket codec (dht.kad key) ad bucket now
      (⟨putValue dht.kad key (codec.marshal merged), dht.localAds.set ad.agentPubkey ad,
        dht.localBucket.set ad.agentPubkey bucket⟩, .ok key)

def unpublishAgent (dht : GyzaDHT Rest) (agentPubkey : String) (now : Int64) :
    GyzaDHT Rest × Except UnpublishError Unit :=
  if agentPubkey = "" then (dht, .error .emptyPubkey)
  else
    let localAds := dht.localAds.pop agentPubkey
    let localBucket := dht.localBucket.pop agentPubkey
    match dht.localBucket.lookup agentPubkey with
    | none => (⟨dht.kad, localAds, localBucket⟩, .ok ())
    | some bucket =>
        let key := agentDHTKey bucket
        let out : AgentBucket Rest :=
          ⟨bucket, (stored codec (dht.kad key)).filter (fun a => a.agentPubkey ≠ agentPubkey), now⟩
        (⟨putValue dht.kad key (codec.marshal out), localAds, localBucket⟩, .ok ())

inductive Call (Rest : Type) where
  | publish (ad : Option (AgentAdvertisement Rest)) (seen now : Int64)
  | unpublish (agentPubkey : String) (now : Int64)

def step (dht : GyzaDHT Rest) : Call Rest → GyzaDHT Rest
  | .publish ad seen now => (publishAgent lsh codec dht ad seen now).1
  | .unpublish agentPubkey now => (unpublishAgent codec dht agentPubkey now).1

/-- A node that has published nothing, on a DHT with the values of others. -/
def joined (start : Bytes → Bytes) : GyzaDHT Rest := ⟨start, Dict.empty, Dict.empty⟩

def after (start : Bytes → Bytes) (calls : List (Call Rest)) : GyzaDHT Rest :=
  Run.run (step lsh codec) (joined start) calls

/-- What a bucket record contains. -/
def heldIn (kad : Bytes → Bytes) (bucket : UInt64) : List (AgentAdvertisement Rest) :=
  stored codec (kad (agentDHTKey bucket))

/-! What the history of a node's calls says about its agents. -/

def record (agent : String) (earlier : List (UInt64 × AgentAdvertisement Rest)) :
    Call Rest → List (UInt64 × AgentAdvertisement Rest)
  | .publish ad seen _ =>
      match checkAd ad with
      | .error _ => earlier
      | .ok ad =>
          if ad.agentPubkey = agent then earlier ++ [(bucketOf lsh ad, stamped lsh ad seen)]
          else earlier
  | .unpublish other _ => if other = agent ∧ other ≠ "" then [] else earlier

/-- What was published for an agent since it was unpublished last, with the buckets. -/
def puts (agent : String) (calls : List (Call Rest)) : List (UInt64 × AgentAdvertisement Rest) :=
  calls.foldl (record lsh agent) []

/-- Unpublished, and not published again. -/
def Unpublished (agent : String) (calls : List (Call Rest)) : Prop :=
  agent ≠ "" ∧ (∃ now, Call.unpublish agent now ∈ calls) ∧ puts lsh agent calls = []

def Call.Names (call : Call Rest) (agent : String) : Prop :=
  match call with
  | .publish ad _ _ => ad.map AgentAdvertisement.agentPubkey = some agent
  | .unpublish other _ => other = agent

def Absent (start : Bytes → Bytes) (agent : String) : Prop :=
  ∀ bucket, ∀ ad ∈ heldIn codec start bucket, ad.agentPubkey ≠ agent

/-- The buckets a node starts with hold the agents of others only. -/
def OthersOnly (start : Bytes → Bytes) (calls : List (Call Rest)) : Prop :=
  ∀ call ∈ calls, ∀ agent, call.Names agent → Absent codec start agent

/-- No bucket has an agent that was unpublished, and every other advertisement is there, unless
a newer one of its agent replaced it. -/
structure Scrubbed (start : Bytes → Bytes) (calls : List (Call Rest)) : Prop where
  removed : ∀ agent, Unpublished lsh agent calls →
    Absent codec (after lsh codec start calls).kad agent
  foreign : ∀ bucket, ∀ ad ∈ heldIn codec start bucket,
    ad ∈ heldIn codec (after lsh codec start calls).kad bucket
  own : ∀ agent, ∀ put ∈ puts lsh agent calls,
    ∃ ad ∈ heldIn codec (after lsh codec start calls).kad put.1,
      ad.agentPubkey = agent ∧ put.2.lastSeen ≤ ad.lastSeen

/-- Whenever an agent is unpublished, it has been published to one bucket since the last time. -/
def OneBucket (calls : List (Call Rest)) : Prop :=
  ∀ front agent now back, calls = front ++ .unpublish agent now :: back → agent ≠ "" →
    ∀ first ∈ puts lsh agent front, ∀ second ∈ puts lsh agent front, first.1 = second.1

end Agents

section Keys

theorem digits_determine {a b : Nat} (places : Nat)
    (same : ∀ place < places, a / 16 ^ place % 16 = b / 16 ^ place % 16) :
    a % 16 ^ places = b % 16 ^ places := by
  induction places with
  | zero => simp [Nat.mod_one]
  | succ places ih =>
      rw [Nat.mod_pow_succ, Nat.mod_pow_succ, same places (Nat.lt_succ_self places),
        ih fun place below => same place (Nat.lt_succ_of_lt below)]

theorem digitChar_injective {a b : Nat} (first : a < 16) (second : b < 16)
    (same : Hex.digitChar a = Hex.digitChar b) : a = b := by
  have values := congrArg Hex.digitValue same
  rw [Hex.digitValue_digitChar a first, Hex.digitValue_digitChar b second] at values
  exact Option.some.inj values

theorem agentDHTKey_injective : Function.Injective agentDHTKey := by
  intro first second same
  have texts := Hex.utf8_injective (List.append_cancel_left same)
  have digits := List.map_inj_left.mp (String.ofList_injective texts)
  have places : ∀ place < 16,
      first.toNat / 16 ^ place % 16 = second.toNat / 16 ^ place % 16 := by
    intro place below
    have digit := digitChar_injective (Nat.mod_lt _ (by omega)) (Nat.mod_lt _ (by omega))
      (digits (15 - place) (List.mem_range.mpr (by omega)))
    rwa [show 15 - (15 - place) = place by omega] at digit
  have whole := digits_determine 16 places
  rw [Nat.mod_eq_of_lt (by simpa using first.toNat_lt),
    Nat.mod_eq_of_lt (by simpa using second.toNat_lt)] at whole
  exact UInt64.toNat_inj.mp whole

end Keys

section Steps

variable {Rest : Type} {lsh : LSHIndex} {codec : BucketCodec Rest}

theorem upsert_eq (ads : List (AgentAdvertisement Rest)) (ad : AgentAdvertisement Rest) :
    upsert ads ad = LatestWins.put AgentAdvertisement.agentPubkey
      (fun ad => ad.lastSeen.toInt) ads ad := by
  induction ads with
  | nil => rfl
  | cons e others ih => simp only [upsert, LatestWins.put, ih, Int64.le_iff_toInt_le]

theorem stored_marshal (bucket : AgentBucket Rest) :
    stored codec (codec.marshal bucket) = bucket.advertisements := by
  unfold stored
  split_ifs with empty
  · have same := codec.unmarshal_marshal bucket
    rw [empty, codec.unmarshal_nil] at same
    rw [← Option.some.inj same]
  · rw [codec.unmarshal_marshal]

theorem heldIn_putValue (kad : Bytes → Bytes) (out : AgentBucket Rest) (bucket other : UInt64) :
    heldIn codec (putValue kad (agentDHTKey bucket) (codec.marshal out)) other =
      if other = bucket then out.advertisements else heldIn codec kad other := by
  unfold heldIn putValue
  by_cases same : other = bucket
  · rw [if_pos same, if_pos (congrArg agentDHTKey same), stored_marshal]
  · rw [if_neg same, if_neg (agentDHTKey_injective.ne same)]

theorem publish_held {dht : GyzaDHT Rest} {ad : Option (AgentAdvertisement Rest)}
    {checked : AgentAdvertisement Rest} (ok : checkAd ad = .ok checked) (seen now : Int64)
    (bucket : UInt64) :
    heldIn codec (step lsh codec dht (.publish ad seen now)).kad bucket =
      if bucket = bucketOf lsh checked then
        upsert (heldIn codec dht.kad bucket) (stamped lsh checked seen)
      else heldIn codec dht.kad bucket := by
  simp only [step, publishAgent, ok, heldIn_putValue, mergeBucket]
  split_ifs with same
  · rw [same]
    rfl
  · rfl

theorem unpublish_held {dht : GyzaDHT Rest} {agent : String} (named : agent ≠ "") {last : UInt64}
    (remembered : dht.localBucket.lookup agent = some last) (now : Int64) (bucket : UInt64) :
    heldIn codec (step lsh codec dht (.unpublish agent now)).kad bucket =
      if bucket = last then (heldIn codec dht.kad bucket).filter (fun a => a.agentPubkey ≠ agent)
      else heldIn codec dht.kad bucket := by
  simp only [step, unpublishAgent, if_neg named, remembered, heldIn_putValue]
  split_ifs with same
  · rw [same]
    rfl
  · rfl

theorem unpublish_kad {dht : GyzaDHT Rest} {agent : String}
    (unknown : dht.localBucket.lookup agent = none) (now : Int64) :
    (step lsh codec dht (.unpublish agent now)).kad = dht.kad := by
  simp only [step, unpublishAgent, unknown]
  split_ifs
  · rfl
  · rfl

theorem unpublish_localBucket (dht : GyzaDHT Rest) (agent : String) (now : Int64) :
    (step lsh codec dht (.unpublish agent now)).localBucket =
      if agent = "" then dht.localBucket else dht.localBucket.pop agent := by
  simp only [step, unpublishAgent]
  split_ifs
  · rfl
  · cases dht.localBucket.lookup agent with
    | none => rfl
    | some bucket => rfl

theorem publish_refused {dht : GyzaDHT Rest} {ad : Option (AgentAdvertisement Rest)}
    {error : PublishError} (refused : checkAd ad = .error error) (seen now : Int64) :
    step lsh codec dht (.publish ad seen now) = dht := by
  simp only [step, publishAgent, refused]

theorem checkAd_ok {ad : Option (AgentAdvertisement Rest)} {checked : AgentAdvertisement Rest}
    (ok : checkAd ad = .ok checked) : ad = some checked := by
  unfold checkAd at ok
  cases ad with
  | none => cases ok
  | some given =>
      dsimp only at ok
      split_ifs at ok
      cases ok
      rfl

/-- A checked embedding decodes to as many numbers as the hash takes. -/
theorem checkAd_decodes {ad : Option (AgentAdvertisement Rest)} {checked : AgentAdvertisement Rest}
    (ok : checkAd ad = .ok checked) (planes : List (List Float32)) :
    ∃ emb, decodeF32LE checked.specializationEmbedding = some emb ∧
      emb.length = Lsh.embeddingDim ∧
        bucketOf (LSHIndex.ofPlanes planes) checked = lshHash planes emb := by
  have given := checkAd_ok ok
  subst given
  simp only [checkAd] at ok
  split_ifs at ok with aligned dims
  obtain ⟨emb, decoded, length⟩ := (decodeF32LE_dims checked.specializationEmbedding
    Lsh.embeddingDim).mpr (by omega)
  refine ⟨emb, decoded, length, ?_⟩
  simp only [bucketOf, LSHIndex.ofPlanes, decoded, Option.map_some, Option.getD_some]

theorem after_concat (start : Bytes → Bytes) (calls : List (Call Rest)) (call : Call Rest) :
    after lsh codec start (calls ++ [call]) =
      step lsh codec (after lsh codec start calls) call := by
  rw [after, Run.run_append]
  rfl

theorem puts_concat (agent : String) (calls : List (Call Rest)) (call : Call Rest) :
    puts lsh agent (calls ++ [call]) = record lsh agent (puts lsh agent calls) call := by
  simp only [puts, List.foldl_append, List.foldl_cons, List.foldl_nil]

/-- The bucket remembered for an agent is the last one that it was published to. -/
theorem remembered_last (start : Bytes → Bytes) (calls : List (Call Rest)) (agent : String) :
    (after lsh codec start calls).localBucket.lookup agent =
      ((puts lsh agent calls).getLast?).map Prod.fst := by
  induction calls using List.reverseRecOn with
  | nil => rfl
  | append_singleton calls call ih =>
      rw [after_concat, puts_concat]
      cases call with
      | publish ad seen now =>
          cases checked : checkAd ad with
          | error error =>
              rw [publish_refused checked]
              simp only [record, checked, ih]
          | ok ad' =>
              simp only [step, publishAgent, record, checked, Dict.lookup_set]
              have kept : (stamped lsh ad' seen).agentPubkey = ad'.agentPubkey := rfl
              rw [kept]
              split_ifs with same
              · simp
              · exact ih
      | unpublish other now =>
          rw [unpublish_localBucket, record]
          by_cases empty : other = ""
          · simp only [empty, if_true, ne_eq, not_true_eq_false, and_false, if_false, ih]
          · simp only [empty, if_false, Dict.lookup_pop, ne_eq, not_false_eq_true, and_true]
            split_ifs
            · rfl
            · exact ih

end Steps

section Tracking

variable {Rest : Type} (lsh : LSHIndex) (codec : BucketCodec Rest)

def putsTo (bucket : UInt64) (agent : String) (calls : List (Call Rest)) :
    List (AgentAdvertisement Rest) :=
  ((puts lsh agent calls).filter (fun put => put.1 = bucket)).map Prod.snd

/-- The advertisements of an agent in a bucket. -/
def adsOf (kad : Bytes → Bytes) (bucket : UInt64) (agent : String) :
    List (AgentAdvertisement Rest) :=
  LatestWins.entries AgentAdvertisement.agentPubkey (heldIn codec kad bucket) agent

/-- Every bucket has the latest advertisement that was put to it for each agent of the node,
and all that it started with. -/
structure Tracks (start : Bytes → Bytes) (calls : List (Call Rest)) : Prop where
  held : ∀ agent, Absent codec start agent → ∀ bucket,
    LatestWins.Latest (fun ad => ad.lastSeen.toInt) (putsTo lsh bucket agent calls)
      (adsOf codec (after lsh codec start calls).kad bucket agent)
  foreign : ∀ bucket, ∀ ad ∈ heldIn codec start bucket,
    ad ∈ heldIn codec (after lsh codec start calls).kad bucket

variable {lsh codec} {start : Bytes → Bytes}

theorem adsOf_absent {kad : Bytes → Bytes} {agent : String} :
    Absent codec kad agent ↔ ∀ bucket, adsOf codec kad bucket agent = [] := by
  simp [Absent, adsOf, LatestWins.entries, List.filter_eq_nil_iff]

theorem tracks_nil : Tracks lsh codec start [] where
  held _ absent bucket := Or.inl ⟨rfl, adsOf_absent.mp absent bucket⟩
  foreign _ _ member := member

/-- A call that puts nothing and records nothing. -/
theorem Tracks.unchanged {calls : List (Call Rest)} (tracks : Tracks lsh codec start calls)
    {call : Call Rest}
    (kad : (after lsh codec start (calls ++ [call])).kad = (after lsh codec start calls).kad)
    (recorded : ∀ agent, puts lsh agent (calls ++ [call]) = puts lsh agent calls) :
    Tracks lsh codec start (calls ++ [call]) := by
  constructor
  · intro agent absent bucket
    rw [kad, putsTo, recorded]
    exact tracks.held agent absent bucket
  · rw [kad]
    exact tracks.foreign

theorem putsTo_publish {ad : Option (AgentAdvertisement Rest)} {checked : AgentAdvertisement Rest}
    (ok : checkAd ad = .ok checked) (calls : List (Call Rest)) (seen now : Int64) (bucket : UInt64)
    (agent : String) :
    putsTo lsh bucket agent (calls ++ [.publish ad seen now]) =
      if checked.agentPubkey = agent ∧ bucketOf lsh checked = bucket then
        putsTo lsh bucket agent calls ++ [stamped lsh checked seen]
      else putsTo lsh bucket agent calls := by
  simp only [putsTo, puts_concat, record, ok]
  by_cases own : checked.agentPubkey = agent
  · rw [if_pos own, List.filter_append, List.map_append]
    by_cases here : bucketOf lsh checked = bucket
    · simp [own, here]
    · simp [own, here]
  · simp [own]

theorem Tracks.publish {calls : List (Call Rest)} (tracks : Tracks lsh codec start calls)
    {ad : Option (AgentAdvertisement Rest)} (seen now : Int64)
    (others : ∀ agent, (Call.publish ad seen now).Names agent → Absent codec start agent) :
    Tracks lsh codec start (calls ++ [.publish ad seen now]) := by
  cases checked : checkAd ad with
  | error error =>
      apply tracks.unchanged
      · rw [after_concat, publish_refused checked]
      · intro agent
        simp only [puts_concat, record, checked]
  | ok ad' =>
      have named : (Call.publish ad seen now).Names ad'.agentPubkey := by
        simp only [Call.Names, checkAd_ok checked, Option.map_some]
      constructor
      · intro agent absent bucket
        have before := tracks.held agent absent bucket
        rw [putsTo_publish checked, adsOf, after_concat, publish_held checked]
        by_cases here : bucketOf lsh ad' = bucket
        · rw [if_pos here.symm, upsert_eq]
          by_cases own : ad'.agentPubkey = agent
          · subst own
            rw [if_pos ⟨rfl, here⟩]
            exact LatestWins.Latest.append before
          · have other : (stamped lsh ad' seen).agentPubkey ≠ agent := own
            rw [if_neg (fun both => own both.1), LatestWins.entries_put_other _ _ _ _ other]
            exact before
        · rw [if_neg (Ne.symm here), if_neg (fun both => here both.2)]
          exact before
      · intro bucket other member
        have foreign : ad'.agentPubkey ≠ other.agentPubkey := fun same =>
          others _ named bucket other member same.symm
        have present := tracks.foreign bucket other member
        rw [after_concat, publish_held checked]
        split_ifs
        · rw [upsert_eq]
          have kept := LatestWins.entries_put_other AgentAdvertisement.agentPubkey
            (fun ad => ad.lastSeen.toInt) (heldIn codec (after lsh codec start calls).kad bucket)
            (stamped lsh ad' seen) foreign
          have listed := (LatestWins.mem_entries AgentAdvertisement.agentPubkey _ _ other).mpr
            ⟨present, rfl⟩
          rw [← kept] at listed
          exact ((LatestWins.mem_entries _ _ _ _).mp listed).1
        · exact present

theorem puts_unpublish {agent : String} (named : agent ≠ "") (calls : List (Call Rest))
    (now : Int64) (other : String) :
    puts lsh other (calls ++ [.unpublish agent now]) =
      if agent = other then [] else puts lsh other calls := by
  simp only [puts_concat, record, named, ne_eq, not_false_eq_true, and_true]

theorem adsOf_unpublish {dht : GyzaDHT Rest} {agent : String} (named : agent ≠ "") {last : UInt64}
    (remembered : dht.localBucket.lookup agent = some last) (now : Int64) (bucket : UInt64)
    (other : String) :
    adsOf codec (step lsh codec dht (.unpublish agent now)).kad bucket other =
      if agent = other ∧ last = bucket then [] else adsOf codec dht.kad bucket other := by
  rw [adsOf, unpublish_held named remembered]
  by_cases here : last = bucket
  · rw [if_pos here.symm]
    by_cases own : agent = other
    · rw [if_pos ⟨own, here⟩]
      simp [LatestWins.entries, own]
    · rw [if_neg (fun both => own both.1), adsOf]
      unfold LatestWins.entries
      rw [List.filter_filter]
      apply List.filter_congr
      intro ad _
      by_cases same : ad.agentPubkey = other
      · simp [same, Ne.symm own]
      · simp [same]
  · rw [if_neg (Ne.symm here), if_neg (fun both => here both.2), adsOf]

/-- All that was published for an agent went to the bucket that is remembered. -/
theorem remembered_of_one (codec : BucketCodec Rest) (start : Bytes → Bytes)
    {calls : List (Call Rest)} {agent : String}
    (one : ∀ first ∈ puts lsh agent calls, ∀ second ∈ puts lsh agent calls, first.1 = second.1) :
    ∀ put ∈ puts lsh agent calls,
      (after lsh codec start calls).localBucket.lookup agent = some put.1 := by
  intro put member
  obtain ⟨last, ends⟩ := Option.isSome_iff_exists.mp
    (List.getLast?_isSome.mpr (List.ne_nil_of_mem member))
  rw [remembered_last, ends, Option.map_some, one last (List.mem_of_getLast? ends) put member]

theorem putsTo_elsewhere {calls : List (Call Rest)} {agent : String}
    (one : ∀ first ∈ puts lsh agent calls, ∀ second ∈ puts lsh agent calls, first.1 = second.1)
    {last bucket : UInt64}
    (remembered : (after lsh codec start calls).localBucket.lookup agent = some last)
    (away : last ≠ bucket) : putsTo lsh bucket agent calls = [] := by
  rw [putsTo, List.map_eq_nil_iff, List.filter_eq_nil_iff]
  intro put member here
  have went := remembered_of_one codec start one put member
  rw [remembered] at went
  exact away ((Option.some.inj went).trans (of_decide_eq_true here))

/-- Unpublishing scrubs an agent that was published to one bucket only. -/
theorem Tracks.unpublish {calls : List (Call Rest)} (tracks : Tracks lsh codec start calls)
    {agent : String} (now : Int64) (others : Absent codec start agent)
    (one : agent ≠ "" → ∀ first ∈ puts lsh agent calls, ∀ second ∈ puts lsh agent calls,
      first.1 = second.1) :
    Tracks lsh codec start (calls ++ [.unpublish agent now]) := by
  by_cases named : agent = ""
  · apply tracks.unchanged
    · rw [after_concat]
      simp only [step, unpublishAgent, if_pos named]
    · intro other
      simp only [puts_concat, record, named, ne_eq, not_true_eq_false, and_false, if_false]
  · cases remembered : (after lsh codec start calls).localBucket.lookup agent with
    | none =>
        have unpublished : puts lsh agent calls = [] := by
          rw [remembered_last, Option.map_eq_none_iff, List.getLast?_eq_none_iff] at remembered
          exact remembered
        apply tracks.unchanged
        · rw [after_concat, unpublish_kad remembered]
        · intro other
          rw [puts_unpublish named]
          split_ifs with own
          · rw [← own, unpublished]
          · rfl
    | some last =>
        constructor
        · intro other absent bucket
          have before := tracks.held other absent bucket
          rw [after_concat, adsOf_unpublish named remembered, putsTo, puts_unpublish named]
          by_cases own : agent = other
          · subst own
            rw [if_pos rfl]
            by_cases here : last = bucket
            · rw [if_pos ⟨rfl, here⟩]
              exact Or.inl ⟨rfl, rfl⟩
            · rw [if_neg (fun both => here both.2)]
              rw [putsTo_elsewhere (one named) remembered here] at before
              exact Or.inl ⟨rfl, before.none⟩
          · rw [if_neg own, if_neg (fun both => own both.1)]
            exact before
        · intro bucket ad member
          rw [after_concat, unpublish_held named remembered]
          split_ifs
          · exact List.mem_filter.mpr ⟨tracks.foreign bucket ad member,
              by simpa using others bucket ad member⟩
          · exact tracks.foreign bucket ad member

theorem OthersOnly.front {front : List (Call Rest)} {call : Call Rest}
    (others : OthersOnly codec start (front ++ [call])) : OthersOnly codec start front :=
  fun earlier member => others earlier (List.mem_append_left _ member)

theorem OneBucket.front {front : List (Call Rest)} {call : Call Rest}
    (one : OneBucket lsh (front ++ [call])) : OneBucket lsh front := by
  intro earlier agent now back split
  exact one earlier agent now (back ++ [call]) (by rw [split, List.append_assoc, List.cons_append])

theorem OneBucket.concat {front : List (Call Rest)} {call : Call Rest} (one : OneBucket lsh front)
    (last : ∀ agent now, call = .unpublish agent now → agent ≠ "" →
      ∀ first ∈ puts lsh agent front, ∀ second ∈ puts lsh agent front, first.1 = second.1) :
    OneBucket lsh (front ++ [call]) := by
  intro earlier agent now back split
  rcases back.eq_nil_or_concat with rfl | ⟨rest, final, rfl⟩
  · rcases List.append_inj' split rfl with ⟨rfl, same⟩
    exact last agent now (List.cons.inj same).1
  · rw [List.concat_eq_append, ← List.cons_append, ← List.append_assoc] at split
    exact one earlier agent now rest (List.append_inj' split rfl).1

theorem tracks_of_oneBucket {calls : List (Call Rest)} (others : OthersOnly codec start calls)
    (one : OneBucket lsh calls) : Tracks lsh codec start calls := by
  induction calls using List.reverseRecOn with
  | nil => exact tracks_nil
  | append_singleton calls call ih =>
      have tracks := ih others.front one.front
      have named := others call (by simp)
      cases call with
      | publish ad seen now => exact tracks.publish seen now named
      | unpublish agent now =>
          exact tracks.unpublish now (named agent rfl) (one calls agent now [] rfl)

/-- Something was published for an agent only if a call names it. -/
theorem named_of_put {calls : List (Call Rest)} {agent : String}
    {put : UInt64 × AgentAdvertisement Rest} (member : put ∈ puts lsh agent calls) :
    ∃ call ∈ calls, call.Names agent := by
  induction calls using List.reverseRecOn with
  | nil => cases member
  | append_singleton calls call ih =>
      have earlier : put ∈ puts lsh agent calls → ∃ other ∈ calls ++ [call], other.Names agent := by
        intro before
        obtain ⟨other, listed, names⟩ := ih before
        exact ⟨other, List.mem_append_left _ listed, names⟩
      rw [puts_concat] at member
      cases call with
      | publish ad seen now =>
          cases checked : checkAd ad with
          | error error =>
              simp only [record, checked] at member
              exact earlier member
          | ok ad' =>
              simp only [record, checked] at member
              split_ifs at member with own
              · refine ⟨.publish ad seen now, by simp, ?_⟩
                simp only [Call.Names, checkAd_ok checked, Option.map_some, own]
              · exact earlier member
      | unpublish other now =>
          simp only [record] at member
          split_ifs at member
          · cases member
          · exact earlier member

theorem Tracks.scrubbed {calls : List (Call Rest)} (tracks : Tracks lsh codec start calls)
    (others : OthersOnly codec start calls) : Scrubbed lsh codec start calls where
  removed := by
    rintro agent ⟨_, ⟨now, called⟩, none⟩
    rw [adsOf_absent]
    intro bucket
    have held := tracks.held agent (others _ called agent rfl) bucket
    rw [putsTo, none] at held
    exact held.none
  foreign := tracks.foreign
  own := by
    intro agent put member
    obtain ⟨call, listed, names⟩ := named_of_put member
    have there : put.2 ∈ putsTo lsh put.1 agent calls :=
      List.mem_map.mpr ⟨put, List.mem_filter.mpr ⟨member, by simp⟩, rfl⟩
    have latest := tracks.held agent (others call listed agent names) put.1
    obtain ⟨ad, held, newer⟩ := latest.exists_ge there
    obtain ⟨present, own⟩ := (LatestWins.mem_entries _ _ _ _).mp held
    exact ⟨ad, present, own, Int64.le_iff_toInt_le.mpr newer⟩

/-- An agent that was published to two buckets is left in one of them. -/
theorem one_of_scrubbed {calls : List (Call Rest)} {agent : String} {now : Int64}
    (named : agent ≠ "") (tracks : Tracks lsh codec start calls) (others : Absent codec start agent)
    (scrubbed : Scrubbed lsh codec start (calls ++ [.unpublish agent now])) :
    ∀ first ∈ puts lsh agent calls, ∀ second ∈ puts lsh agent calls, first.1 = second.1 := by
  have gone : Absent codec (after lsh codec start (calls ++ [.unpublish agent now])).kad agent :=
    scrubbed.removed agent ⟨named, ⟨now, by simp⟩, by rw [puts_unpublish named, if_pos rfl]⟩
  have went : ∀ put ∈ puts lsh agent calls,
      (after lsh codec start calls).localBucket.lookup agent = some put.1 := by
    intro put member
    cases remembered : (after lsh codec start calls).localBucket.lookup agent with
    | none =>
        rw [remembered_last, Option.map_eq_none_iff, List.getLast?_eq_none_iff] at remembered
        rw [remembered] at member
        cases member
    | some last =>
        by_contra elsewhere
        have there : put.2 ∈ putsTo lsh put.1 agent calls :=
          List.mem_map.mpr ⟨put, List.mem_filter.mpr ⟨member, by simp⟩, rfl⟩
        obtain ⟨ad, held, _⟩ := (tracks.held agent others put.1).exists_ge there
        have left := adsOf_absent.mp gone put.1
        rw [after_concat, adsOf_unpublish named remembered,
          if_neg (fun both => elsewhere (congrArg some both.2))] at left
        rw [left] at held
        cases held
  intro first one second two
  exact Option.some.inj ((went first one).symm.trans (went second two))

theorem oneBucket_of_scrubbed {calls : List (Call Rest)} (others : OthersOnly codec start calls)
    (scrubbed : ∀ front back, calls = front ++ back → Scrubbed lsh codec start front) :
    OneBucket lsh calls := by
  induction calls using List.reverseRecOn with
  | nil =>
      intro front agent now back split
      simp at split
  | append_singleton calls call ih =>
      have one := ih others.front (fun front back split =>
        scrubbed front (back ++ [call]) (by rw [split, List.append_assoc]))
      apply one.concat
      intro agent now unpublished named
      subst unpublished
      exact one_of_scrubbed named (tracks_of_oneBucket others.front one)
        (others (.unpublish agent now) (by simp) agent rfl)
        (scrubbed (calls ++ [.unpublish agent now]) [] (by simp))

end Tracking

/-- Unpublishing removes an agent everywhere, at every point of a history of calls, exactly if
every agent that is unpublished was published to one bucket since the last time. -/
theorem unpublished_everywhere_iff {Rest : Type} (lsh : LSHIndex) (codec : BucketCodec Rest)
    (start : Bytes → Bytes) (calls : List (Call Rest)) (others : OthersOnly codec start calls) :
    (∀ front back, calls = front ++ back → Scrubbed lsh codec start front) ↔
      OneBucket lsh calls := by
  constructor
  · exact oneBucket_of_scrubbed others
  · intro one front back split
    have before : OthersOnly codec start front := fun call member =>
      others call (by rw [split]; exact List.mem_append_left _ member)
    have earlier : OneBucket lsh front := by
      intro first agent now rest same
      exact one first agent now (rest ++ back)
        (by rw [split, same, List.append_assoc, List.cons_append])
    exact (tracks_of_oneBucket before earlier).scrubbed before

namespace Sample

abbrev Code := ℕ × List (List ℕ × List ℕ × ℤ × ℤ) × ℤ

def encodeAd (ad : AgentAdvertisement Unit) : List ℕ × List ℕ × ℤ × ℤ :=
  (ad.agentPubkey.toList.map Char.toNat, ad.specializationEmbedding.map UInt8.toNat,
    ad.lshBucket.toInt, ad.lastSeen.toInt)

def decodeAd (code : List ℕ × List ℕ × ℤ × ℤ) : AgentAdvertisement Unit :=
  ⟨String.ofList (code.1.map Char.ofNat), code.2.1.map UInt8.ofNat, Int64.ofInt code.2.2.1,
    Int64.ofInt code.2.2.2, ()⟩

def encode (bucket : AgentBucket Unit) : Code :=
  (bucket.lshBucket.toNat, bucket.advertisements.map encodeAd, bucket.lastUpdatedNs.toInt)

def decode (code : Code) : AgentBucket Unit :=
  ⟨UInt64.ofNat code.1, code.2.1.map decodeAd, Int64.ofInt code.2.2⟩

theorem decodeAd_encodeAd (ad : AgentAdvertisement Unit) : decodeAd (encodeAd ad) = ad := by
  simp [decodeAd, encodeAd, Function.comp_def]

theorem decode_encode (bucket : AgentBucket Unit) : decode (encode bucket) = bucket := by
  simp [decode, encode, Function.comp_def, decodeAd_encodeAd]

/-- As many zeros as the number of the message. -/
def marshal (bucket : AgentBucket Unit) : Bytes :=
  List.replicate (Encodable.encode (encode bucket)) 0

def unmarshal (value : Bytes) : Option (AgentBucket Unit) :=
  (Encodable.decode value.length).map decode

theorem unmarshal_marshal (bucket : AgentBucket Unit) :
    unmarshal (marshal bucket) = some bucket := by
  rw [unmarshal, marshal, List.length_replicate, Encodable.encodek, Option.map_some, decode_encode]

theorem unmarshal_nil : unmarshal [] = some ⟨0, [], 0⟩ := by
  have empty : Encodable.encode ((0, [], 0) : Code) = 0 := rfl
  have decoded := Encodable.encodek ((0, [], 0) : Code)
  rw [empty] at decoded
  rw [unmarshal, List.length_nil, decoded]
  rfl

def codec : BucketCodec Unit := ⟨marshal, unmarshal, unmarshal_marshal, unmarshal_nil⟩

/-- One plane, whose normal is the first axis: the bits of the first coordinate are those of a
positive number. -/
def lsh : LSHIndex where
  hash embedding :=
    match embedding with
    | b0 :: b1 :: b2 :: b3 :: _ =>
        let bits := b0.toUInt32 ||| (b1.toUInt32 <<< 8) ||| (b2.toUInt32 <<< 16) |||
          (b3.toUInt32 <<< 24)
        if 0 < bits ∧ bits ≤ 0x7f800000 then 0x8000000000000000 else 0
    | _ => 0

def advertise (agentPubkey : String) (embedding : Bytes) : AgentAdvertisement Unit :=
  ⟨agentPubkey, embedding, 0, 0, ()⟩

def origin : Bytes := List.replicate 1536 0

/-- One along the first axis. -/
def east : Bytes := [0, 0, 0x80, 0x3f] ++ List.replicate 1532 0

/-- An agent of another node in the bucket of the origin. -/
def start : Bytes → Bytes :=
  putValue (fun _ => []) (agentDHTKey 0) (codec.marshal ⟨0, [advertise "b1" origin], 1⟩)

theorem others_only {calls : List (Call Unit)}
    (foreign : ∀ call ∈ calls, ¬call.Names "b1") : OthersOnly codec start calls := by
  intro call member agent names bucket ad held
  rw [start, heldIn_putValue] at held
  split_ifs at held
  · rw [List.mem_singleton.mp held]
    rintro rfl
    exact foreign call member names
  · cases held

def moved : List (Call Unit) :=
  [.publish (some (advertise "a1" origin)) 1 2, .publish (some (advertise "a1" east)) 3 4]

def settled : List (Call Unit) := [.publish (some (advertise "a1" origin)) 1 2]

end Sample

theorem unpublished_everywhere_sample :
    Scrubbed Sample.lsh Sample.codec Sample.start (Sample.settled ++ [.unpublish "a1" 5]) := by
  have others : OthersOnly Sample.codec Sample.start (Sample.settled ++ [.unpublish "a1" 5]) := by
    apply Sample.others_only
    simp [Sample.settled, Call.Names, Sample.advertise]
  have once : (puts Sample.lsh "a1" Sample.settled).map Prod.fst = [0] := by decide +kernel
  have settled : OneBucket Sample.lsh ([] ++ Sample.settled) := by
    apply OneBucket.concat
    · intro front agent now back split
      simp at split
    · intro agent now unpublished
      cases unpublished
  have one : OneBucket Sample.lsh (Sample.settled ++ [.unpublish "a1" 5]) := by
    apply settled.concat
    intro agent now unpublished _ first member second other
    cases unpublished
    have here := List.mem_map_of_mem (f := Prod.fst) member
    have there := List.mem_map_of_mem (f := Prod.fst) other
    rw [List.nil_append, once, List.mem_singleton] at here there
    rw [here, there]
  exact (unpublished_everywhere_iff Sample.lsh Sample.codec Sample.start _ others).mpr one _ []
    (List.append_nil _).symm

/-- The agent moved to another bucket, and its first advertisement is left in the old one. -/
theorem moved_agent_left :
    OthersOnly Sample.codec Sample.start (Sample.moved ++ [.unpublish "a1" 5]) ∧
    ¬∀ front back, Sample.moved ++ [.unpublish "a1" 5] = front ++ back →
      Scrubbed Sample.lsh Sample.codec Sample.start front := by
  have others : OthersOnly Sample.codec Sample.start (Sample.moved ++ [.unpublish "a1" 5]) := by
    apply Sample.others_only
    simp [Sample.moved, Call.Names, Sample.advertise]
  refine ⟨others, ?_⟩
  intro scrubbed
  have one := oneBucket_of_scrubbed others scrubbed Sample.moved "a1" 5 [] rfl (by decide)
  have buckets : (puts Sample.lsh "a1" Sample.moved).map Prod.fst = [0, 0x8000000000000000] := by
    decide +kernel
  have first : (0 : UInt64) ∈ (puts Sample.lsh "a1" Sample.moved).map Prod.fst := by simp [buckets]
  have second : (0x8000000000000000 : UInt64) ∈
      (puts Sample.lsh "a1" Sample.moved).map Prod.fst := by simp [buckets]
  obtain ⟨put, member, old⟩ := List.mem_map.mp first
  obtain ⟨other, listed, new⟩ := List.mem_map.mp second
  have same := one put member other listed
  rw [old, new] at same
  exact absurd same (by decide)

end Gyza.AgentBuckets

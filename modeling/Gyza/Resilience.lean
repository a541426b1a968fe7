import Gyza.AuditVerdict
import Gyza.Lib.Keyed
import Mathlib.Data.Prod.Lex

/-! Byzantine resilience (`gyza/resilience.py`): authors that contradict themselves are
excluded, and the history of the others is verified again. -/

namespace Gyza

structure Equivocation where
  agentPubkey : String
  intentId : String
  actionId : String
  conflictingOutputHashes : List String
  envelopeHashes : List String
  deriving DecidableEq

/-- Author, intent and action. -/
abbrev ActionKey := String × String × String

def actionKey (env : ICPEnvelope) : ActionKey := (env.agentPubkey, env.intentId, env.actionId)

def Equivocation.sortKey (found : Equivocation) : String ×ₗ String ×ₗ String :=
  toLex (found.agentPubkey, toLex (found.intentId, found.actionId))

structure QuarantineView where
  quarantinedAgents : Finset String
  honestEnvelopes : List ICPEnvelope
  quarantinedEnvelopes : List ICPEnvelope

def quarantineView (envelopes : List ICPEnvelope) (agents : Finset String) : QuarantineView where
  quarantinedAgents := agents
  honestEnvelopes := envelopes.filter (fun env => env.agentPubkey ∉ agents)
  quarantinedEnvelopes := envelopes.filter (fun env => env.agentPubkey ∈ agents)

structure ResilienceReport where
  totalEnvelopes : Nat
  totalAgents : Nat
  equivocations : List Equivocation
  quarantinedAgents : Finset String
  honestEnvelopes : Nat
  honestDag : DagVerification

def ResilienceReport.missionIntact (report : ResilienceReport) : Bool :=
  0 < report.honestEnvelopes && report.honestDag.valid

section Assessment

variable (crypto : Crypto)

/-- `groups.setdefault(key, {})[eh] = env.output_hash`. -/
def groupEnvelope (groups : Dict ActionKey (Dict String String)) (env : ICPEnvelope) :
    Dict ActionKey (Dict String String) :=
  groups.set (actionKey env) (((groups.lookup (actionKey env)).getD Dict.empty).set
    (computeEnvelopeHash crypto env) env.outputHash)

def actionGroups (envelopes : List ICPEnvelope) : Dict ActionKey (Dict String String) :=
  envelopes.foldl (groupEnvelope crypto) Dict.empty

/-- One envelope for an action is honest. -/
def equivocationOf (key : ActionKey) (seen : Dict String String) : Option Equivocation :=
  if seen.keys.length < 2 then none
  else
    some {
      agentPubkey := key.1
      intentId := key.2.1
      actionId := key.2.2
      conflictingOutputHashes := sortedHashes seen.values.dedup
      envelopeHashes := sortedHashes seen.keys }

def detectEquivocation (envelopes : List ICPEnvelope) : List Equivocation :=
  ((actionGroups crypto envelopes).rows.filterMap
    (fun row => equivocationOf row.1 row.2)).insertionSort
      (fun first second => first.sortKey ≤ second.sortKey)

def assessResilience (envelopes : List ICPEnvelope) (extraQuarantine : List String := []) :
    ResilienceReport :=
  let equivocations := detectEquivocation crypto envelopes
  let quarantined := (equivocations.map Equivocation.agentPubkey).toFinset ∪ extraQuarantine.toFinset
  let view := quarantineView envelopes quarantined
  { totalEnvelopes := envelopes.length
    totalAgents := (envelopes.map ICPEnvelope.agentPubkey).dedup.length
    equivocations
    quarantinedAgents := quarantined
    honestEnvelopes := view.honestEnvelopes.length
    honestDag := verifyDag crypto false view.honestEnvelopes }

/-! What a history says of its authors, checked or not. -/

/-- Two contents for one action of one author. -/
def Contradicts (env other : ICPEnvelope) : Prop :=
  actionKey env = actionKey other ∧ computeEnvelopeHash crypto env ≠ computeEnvelopeHash crypto other

instance (env other : ICPEnvelope) : Decidable (Contradicts crypto env other) :=
  inferInstanceAs (Decidable (_ ∧ _))

/-- Two envelopes under the author's name contradict each other. -/
def Equivocates (envelopes : List ICPEnvelope) (agent : String) : Prop :=
  ∃ env ∈ envelopes, env.agentPubkey = agent ∧ ∃ other ∈ envelopes, Contradicts crypto env other

instance (envelopes : List ICPEnvelope) (agent : String) :
    Decidable (Equivocates crypto envelopes agent) :=
  inferInstanceAs (Decidable (∃ env ∈ envelopes, _))

/-- The envelopes whose author neither equivocates nor is excluded otherwise. -/
def remainder (envelopes : List ICPEnvelope) (extra : List String) : List ICPEnvelope :=
  envelopes.filter (fun env =>
    ¬(Equivocates crypto envelopes env.agentPubkey ∨ env.agentPubkey ∈ extra))

/-- The remainder is some history, and a valid one. -/
def KeepsHistory (envelopes : List ICPEnvelope) (extra : List String) : Prop :=
  remainder crypto envelopes extra ≠ [] ∧
    (verifyDag crypto false (remainder crypto envelopes extra)).valid = true

/-- The envelopes that verify under an author's key have one content for each action. -/
def SignsOnce (envelopes : List ICPEnvelope) (agent : String) : Prop :=
  ∀ env ∈ envelopes, ∀ other ∈ envelopes, env.agentPubkey = agent →
    selfVerifies crypto env = true → selfVerifies crypto other = true →
      ¬Contradicts crypto env other

def SameVerdict (report other : ResilienceReport) : Prop :=
  report.quarantinedAgents = other.quarantinedAgents ∧
    report.missionIntact = other.missionIntact

end Assessment

variable {crypto : Crypto}

/-! What is detected. -/

/-- The contents that a group ends up with are set one after the other. -/
theorem foldl_group (items : List ICPEnvelope) (seen : Dict String String) :
    items.foldl (fun found env => some ((found.getD Dict.empty).set
        (computeEnvelopeHash crypto env) env.outputHash)) (some seen) =
      some (items.foldl (fun dict env => dict.set (computeEnvelopeHash crypto env) env.outputHash)
        seen) := by
  induction items generalizing seen with
  | nil => rfl
  | cons env rest ih =>
      rw [List.foldl_cons, List.foldl_cons, ← ih]
      rfl

theorem lookup_actionGroups (envelopes : List ICPEnvelope) (key : ActionKey) :
    (actionGroups crypto envelopes).lookup key =
      (Keyed.inputsOf actionKey envelopes key).foldl (fun found env =>
        some ((found.getD Dict.empty).set (computeEnvelopeHash crypto env) env.outputHash))
          none := by
  refine Keyed.view_foldl actionKey (groupEnvelope crypto) (fun groups key => groups.lookup key)
    (fun found env => some ((found.getD Dict.empty).set (computeEnvelopeHash crypto env)
      env.outputHash)) ?_ envelopes Dict.empty key
  intro groups env key
  rw [groupEnvelope, Dict.lookup_set]
  split_ifs with same
  · rw [same]
  · rfl

/-- A group holds the hashes of the envelopes of its key. -/
theorem mem_group {envelopes : List ICPEnvelope} {key : ActionKey} {seen : Dict String String}
    (found : (actionGroups crypto envelopes).lookup key = some seen) (hash : String) :
    hash ∈ seen.keys ↔
      ∃ env ∈ envelopes, actionKey env = key ∧ computeEnvelopeHash crypto env = hash := by
  rw [lookup_actionGroups] at found
  have members : ∀ env, env ∈ Keyed.inputsOf actionKey envelopes key ↔
      env ∈ envelopes ∧ actionKey env = key := Keyed.mem_inputsOf actionKey envelopes key
  cases items : Keyed.inputsOf actionKey envelopes key with
  | nil =>
      rw [items] at found
      cases found
  | cons env rest =>
      rw [items, List.foldl_cons, foldl_group] at found
      have set : (env :: rest).foldl (fun dict env => dict.set (computeEnvelopeHash crypto env)
          env.outputHash) Dict.empty = seen := Option.some.inj found
      rw [← set, Dict.mem_keys_foldl_set (computeEnvelopeHash crypto) ICPEnvelope.outputHash, ← items]
      constructor
      · rintro ⟨other, member, hashed⟩
        obtain ⟨held, keyed⟩ := (members other).mp member
        exact ⟨other, held, keyed, hashed⟩
      · rintro ⟨other, held, keyed, hashed⟩
        exact ⟨other, (members other).mpr ⟨held, keyed⟩, hashed⟩

theorem exists_group {envelopes : List ICPEnvelope} {env : ICPEnvelope} (held : env ∈ envelopes) :
    ∃ seen, (actionGroups crypto envelopes).lookup (actionKey env) = some seen := by
  have member := (Keyed.mem_inputsOf actionKey envelopes (actionKey env) env).mpr ⟨held, rfl⟩
  rw [lookup_actionGroups]
  cases items : Keyed.inputsOf actionKey envelopes (actionKey env) with
  | nil =>
      rw [items] at member
      cases member
  | cons first rest =>
      rw [List.foldl_cons, foldl_group]
      exact ⟨_, rfl⟩

theorem two_le_length_iff {α : Type} {items : List α} (distinct : items.Nodup) :
    ¬items.length < 2 ↔ ∃ first ∈ items, ∃ second ∈ items, first ≠ second := by
  cases items with
  | nil => simp
  | cons first rest =>
      cases rest with
      | nil => simp
      | cons second rest =>
          have apart : first ≠ second := by
            rintro rfl
            simp at distinct
          constructor
          · intro _
            exact ⟨first, by simp, second, by simp, apart⟩
          · intro _
            simp

theorem exists_equivocationOf (key : ActionKey) (seen : Dict String String) (agent : String) :
    (∃ found, equivocationOf key seen = some found ∧ found.agentPubkey = agent) ↔
      key.1 = agent ∧ ∃ first ∈ seen.keys, ∃ second ∈ seen.keys, first ≠ second := by
  rw [← two_le_length_iff seen.keys_nodup, equivocationOf]
  split_ifs with one
  · simp [one]
  · simp [one]

theorem mem_detected_iff (envelopes : List ICPEnvelope) (agent : String) :
    (∃ found ∈ detectEquivocation crypto envelopes, found.agentPubkey = agent) ↔
      Equivocates crypto envelopes agent := by
  simp only [detectEquivocation, List.mem_insertionSort, List.mem_filterMap]
  constructor
  · rintro ⟨found, ⟨⟨key, seen⟩, row, made⟩, author⟩
    have held := (Dict.lookup_eq_some _ key seen).mpr row
    obtain ⟨named, first, member, second, member', apart⟩ :=
      (exists_equivocationOf key seen agent).mp ⟨found, made, author⟩
    obtain ⟨env, present, keyed, hashed⟩ := (mem_group held first).mp member
    obtain ⟨other, present', keyed', hashed'⟩ := (mem_group held second).mp member'
    refine ⟨env, present, ?_, other, present', keyed.trans keyed'.symm, ?_⟩
    · exact (congrArg Prod.fst keyed).trans named
    · rw [hashed, hashed']
      exact apart
  · rintro ⟨env, present, author, other, present', keyed, apart⟩
    obtain ⟨seen, held⟩ := @exists_group crypto envelopes env present
    obtain ⟨found, made, author'⟩ := (exists_equivocationOf (actionKey env) seen agent).mpr
      ⟨author, _, (mem_group held _).mpr ⟨env, present, rfl, rfl⟩, _,
        (mem_group held _).mpr ⟨other, present', keyed.symm, rfl⟩, apart⟩
    exact ⟨found, ⟨(actionKey env, seen), (Dict.lookup_eq_some _ _ _).mp held, made⟩, author'⟩

theorem mem_quarantined_iff (envelopes : List ICPEnvelope) (extra : List String) (agent : String) :
    agent ∈ (assessResilience crypto envelopes extra).quarantinedAgents ↔
      Equivocates crypto envelopes agent ∨ agent ∈ extra := by
  simp only [assessResilience, Finset.mem_union, List.mem_toFinset, List.mem_map,
    mem_detected_iff]

/-- The assessment verifies the remainder. -/
theorem missionIntact_iff (envelopes : List ICPEnvelope) (extra : List String) :
    (assessResilience crypto envelopes extra).missionIntact = true ↔
      KeepsHistory crypto envelopes extra := by
  have kept : (quarantineView envelopes
      (assessResilience crypto envelopes extra).quarantinedAgents).honestEnvelopes =
        remainder crypto envelopes extra := by
    apply List.filter_congr
    intro env _
    rw [decide_eq_decide, mem_quarantined_iff]
  have report : (assessResilience crypto envelopes extra).missionIntact =
      (0 < (remainder crypto envelopes extra).length &&
        (verifyDag crypto false (remainder crypto envelopes extra)).valid) := by
    rw [← kept]
    rfl
  rw [report, Bool.and_eq_true, decide_eq_true_eq, List.length_pos_iff]
  rfl

/-! One more envelope, which does not verify. -/

theorem selfVerifies_of_unsigned {env : ICPEnvelope} (empty : env.signature = "") :
    selfVerifies crypto env = false := by
  have same : env.unsigned = env := by rw [ICPEnvelope.unsigned, ← empty]
  rw [← same]
  exact selfVerifies_unsigned env

theorem Contradicts.symm {env other : ICPEnvelope} (differ : Contradicts crypto env other) :
    Contradicts crypto other env := ⟨differ.1.symm, differ.2.symm⟩

theorem equivocates_concat_iff (envelopes : List ICPEnvelope) (forged : ICPEnvelope)
    (agent : String) :
    Equivocates crypto (envelopes ++ [forged]) agent ↔
      Equivocates crypto envelopes agent ∨
        forged.agentPubkey = agent ∧ ∃ env ∈ envelopes, Contradicts crypto env forged := by
  constructor
  · rintro ⟨env, member, author, other, member', differ⟩
    have same : env.agentPubkey = other.agentPubkey := congrArg Prod.fst differ.1
    rw [List.mem_append, List.mem_singleton] at member member'
    obtain held | rfl := member
    · obtain held' | rfl := member'
      · exact Or.inl ⟨env, held, author, other, held', differ⟩
      · exact Or.inr ⟨same.symm.trans author, env, held, differ⟩
    · obtain held' | rfl := member'
      · exact Or.inr ⟨author, other, held', differ.symm⟩
      · exact absurd rfl differ.2
  · rintro (⟨env, held, author, other, held', differ⟩ | ⟨author, env, held, differ⟩)
    · exact ⟨env, List.mem_append_left _ held, author, other, List.mem_append_left _ held', differ⟩
    · exact ⟨forged, by simp, author, env, List.mem_append_left _ held, differ.symm⟩

/-- A graph with an envelope that does not verify, and comes last, is no valid one. -/
theorem verifyDag_forged (requireClosed : Bool) (envelopes : List ICPEnvelope)
    {forged : ICPEnvelope} (invalid : selfVerifies crypto forged = false) :
    (verifyDag crypto requireClosed (envelopes ++ [forged])).valid = false := by
  have kept : (byHash crypto (envelopes ++ [forged])).lookup (computeEnvelopeHash crypto forged) =
      some forged := by
    rw [lookup_byHash, List.reverse_append]
    simp
  obtain ⟨⟨reason, verdict⟩, -⟩ | ⟨clean, -⟩ :=
    verifyDag_cases crypto requireClosed (envelopes ++ [forged])
  · rw [verdict]
  · have row := (Dict.lookup_eq_some _ _ _).mp kept
    have passes := List.findSome?_eq_none_iff.mp clean _ row
    rw [envelopeDefect_eq_none, invalid] at passes
    exact absurd passes.1 (by decide)

section Forged

variable {envelopes : List ICPEnvelope} {extra : List String} {forged : ICPEnvelope}

theorem remainder_congr {others : List ICPEnvelope}
    (same : ∀ agent, (Equivocates crypto others agent ∨ agent ∈ extra) ↔
      (Equivocates crypto envelopes agent ∨ agent ∈ extra)) :
    remainder crypto others extra = others.filter (fun env =>
      ¬(Equivocates crypto envelopes env.agentPubkey ∨ env.agentPubkey ∈ extra)) := by
  apply List.filter_congr
  intro env _
  rw [decide_eq_decide, same]

theorem sameVerdict_iff (others : List ICPEnvelope) :
    SameVerdict (assessResilience crypto others extra) (assessResilience crypto envelopes extra) ↔
      (∀ agent, (Equivocates crypto others agent ∨ agent ∈ extra) ↔
        (Equivocates crypto envelopes agent ∨ agent ∈ extra)) ∧
        (KeepsHistory crypto others extra ↔ KeepsHistory crypto envelopes extra) := by
  rw [SameVerdict, Finset.ext_iff, Bool.eq_iff_iff, missionIntact_iff, missionIntact_iff]
  simp only [mem_quarantined_iff]

/-- Under an excluded name the envelope changes nothing. -/
theorem sameVerdict_of_excluded
    (excluded : Equivocates crypto envelopes forged.agentPubkey ∨ forged.agentPubkey ∈ extra) :
    SameVerdict (assessResilience crypto (envelopes ++ [forged]) extra)
      (assessResilience crypto envelopes extra) := by
  have agents : ∀ agent, (Equivocates crypto (envelopes ++ [forged]) agent ∨ agent ∈ extra) ↔
      (Equivocates crypto envelopes agent ∨ agent ∈ extra) := by
    intro agent
    rw [equivocates_concat_iff]
    constructor
    · rintro ((own | ⟨rfl, -⟩) | listed)
      · exact Or.inl own
      · exact excluded
      · exact Or.inr listed
    · rintro (own | listed)
      · exact Or.inl (Or.inl own)
      · exact Or.inr listed
  have kept : remainder crypto (envelopes ++ [forged]) extra = remainder crypto envelopes extra := by
    have dropped := List.filter_cons_of_neg (l := []) (a := forged)
      (p := fun env => decide ¬(Equivocates crypto envelopes env.agentPubkey ∨
        env.agentPubkey ∈ extra)) (by rwa [decide_eq_true_eq, not_not])
    rw [remainder_congr agents, List.filter_append, dropped, List.filter_nil, List.append_nil]
    rfl
  rw [sameVerdict_iff, KeepsHistory, kept]
  exact ⟨agents, Iff.rfl⟩

/-- Under another name it breaks the remaining history, or excludes the name. -/
theorem sameVerdict_of_included (invalid : selfVerifies crypto forged = false)
    (included : ¬(Equivocates crypto envelopes forged.agentPubkey ∨ forged.agentPubkey ∈ extra)) :
    SameVerdict (assessResilience crypto (envelopes ++ [forged]) extra)
        (assessResilience crypto envelopes extra) ↔
      ¬KeepsHistory crypto envelopes extra ∧ ∀ env ∈ envelopes, ¬Contradicts crypto env forged := by
  rw [sameVerdict_iff]
  by_cases framed : ∃ env ∈ envelopes, Contradicts crypto env forged
  · constructor
    · rintro ⟨agents, -⟩
      have named := (equivocates_concat_iff envelopes forged forged.agentPubkey).mpr
        (Or.inr ⟨rfl, framed⟩)
      exact absurd ((agents forged.agentPubkey).mp (Or.inl named)) included
    · rintro ⟨-, alone⟩
      obtain ⟨env, held, differ⟩ := framed
      exact absurd differ (alone env held)
  · have agents : ∀ agent, (Equivocates crypto (envelopes ++ [forged]) agent ∨ agent ∈ extra) ↔
        (Equivocates crypto envelopes agent ∨ agent ∈ extra) := by
      intro agent
      rw [equivocates_concat_iff]
      simp [framed]
    have kept : remainder crypto (envelopes ++ [forged]) extra =
        remainder crypto envelopes extra ++ [forged] := by
      have added := List.filter_cons_of_pos (l := []) (a := forged)
        (p := fun env => decide ¬(Equivocates crypto envelopes env.agentPubkey ∨
          env.agentPubkey ∈ extra)) (by simpa using included)
      rw [remainder_congr agents, List.filter_append, added]
      rfl
    have broken : ¬KeepsHistory crypto (envelopes ++ [forged]) extra := by
      rintro ⟨-, valid⟩
      rw [kept, verifyDag_forged false _ invalid] at valid
      cases valid
    have alone : ∀ env ∈ envelopes, ¬Contradicts crypto env forged := by
      intro env held differ
      exact framed ⟨env, held, differ⟩
    constructor
    · rintro ⟨-, histories⟩
      exact ⟨fun keeps => broken (histories.mpr keeps), alone⟩
    · rintro ⟨lost, -⟩
      exact ⟨agents, iff_of_false broken lost⟩

end Forged

/-- An envelope that does not verify leaves the verdict as it was exactly under a name that is
excluded anyway, or where no history was left and it contradicts nothing. An author that
signed once for each action is left alone exactly when no unverified envelope under its name
contradicts another. -/
theorem forged_same_verdict_iff {envelopes : List ICPEnvelope} (extra : List String)
    {forged : ICPEnvelope} (invalid : selfVerifies crypto forged = false) {agent : String}
    (once : SignsOnce crypto envelopes agent) :
    (SameVerdict (assessResilience crypto (envelopes ++ [forged]) extra)
        (assessResilience crypto envelopes extra) ↔
      (Equivocates crypto envelopes forged.agentPubkey ∨ forged.agentPubkey ∈ extra) ∨
        (¬KeepsHistory crypto envelopes extra ∧
          ∀ env ∈ envelopes, ¬Contradicts crypto env forged)) ∧
      (agent ∉ (assessResilience crypto envelopes).quarantinedAgents ↔
        ∀ env ∈ envelopes, ∀ other ∈ envelopes, env.agentPubkey = agent →
          selfVerifies crypto env = false → ¬Contradicts crypto env other) := by
  constructor
  · by_cases excluded : Equivocates crypto envelopes forged.agentPubkey ∨ forged.agentPubkey ∈ extra
    · exact iff_of_true (sameVerdict_of_excluded excluded) (Or.inl excluded)
    · rw [sameVerdict_of_included invalid excluded, or_iff_right excluded]
  · rw [mem_quarantined_iff, or_iff_left List.not_mem_nil]
    constructor
    · intro free env held other held' author _ differ
      exact free ⟨env, held, author, other, held', differ⟩
    · rintro apart ⟨env, held, author, other, held', differ⟩
      have author' : other.agentPubkey = agent := (congrArg Prod.fst differ.1).symm.trans author
      cases verified : selfVerifies crypto env with
      | false => exact apart env held other held' author verified differ
      | true =>
          cases verified' : selfVerifies crypto other with
          | false => exact apart other held' env held author' verified' differ.symm
          | true => exact once env held other held' author verified verified' differ

namespace Sample

/-- Another output under the name of the sample agent, unsigned. -/
def framingEnvelope : ICPEnvelope :=
  { Sample.envelope ["in"] "out" none with outputHash := "other", signature := "" }

theorem framing_invalid : selfVerifies Sample.crypto framingEnvelope = false :=
  selfVerifies_of_unsigned rfl

theorem framing_contradicts :
    Contradicts Sample.crypto (envelope ["in"] "out" none) framingEnvelope := by
  refine ⟨rfl, ?_⟩
  intro same
  have unsigned := (computeEnvelopeHash_eq_iff blake3_injective _ _).mp same
  have outputs := congrArg ICPEnvelope.outputHash unsigned
  exact absurd outputs (by decide)

theorem one_envelope_alone (env : ICPEnvelope) : ∀ agent, ¬Equivocates Sample.crypto [env] agent := by
  rintro agent ⟨first, member, -, second, member', differ⟩
  cases List.mem_singleton.mp member
  cases List.mem_singleton.mp member'
  exact differ.2 rfl

theorem honest_keeps_history : KeepsHistory Sample.crypto [envelope ["in"] "out" none] [] := by
  have whole : remainder Sample.crypto [envelope ["in"] "out" none] [] = [envelope ["in"] "out" none] := by
    rw [remainder, List.filter_eq_self]
    intro env _
    simp [one_envelope_alone]
  rw [KeepsHistory, whole]
  exact ⟨by simp, Audit.verifyDag_root blake3_injective false (envelope_verifies _ _ _) rfl
    (by simp [envelope, signEnvelope])⟩

theorem honest_signs_once :
    SignsOnce Sample.crypto [envelope ["in"] "out" none] (compositor 1).pubkeyHex := by
  intro env held other held' author _ _ differ
  exact one_envelope_alone _ (compositor 1).pubkeyHex ⟨env, held, author, other, held', differ⟩

end Sample

theorem forged_same_verdict_sample :
    (SameVerdict (assessResilience Sample.crypto
          ([Sample.envelope ["in"] "out" none] ++ [Sample.framingEnvelope]) [])
        (assessResilience Sample.crypto [Sample.envelope ["in"] "out" none] []) ↔
      (Equivocates Sample.crypto [Sample.envelope ["in"] "out" none]
          Sample.framingEnvelope.agentPubkey ∨ Sample.framingEnvelope.agentPubkey ∈ ([] : List String)) ∨
        (¬KeepsHistory Sample.crypto [Sample.envelope ["in"] "out" none] [] ∧
          ∀ env ∈ [Sample.envelope ["in"] "out" none],
            ¬Contradicts Sample.crypto env Sample.framingEnvelope)) ∧
      ((Sample.compositor 1).pubkeyHex ∉
          (assessResilience Sample.crypto [Sample.envelope ["in"] "out" none]).quarantinedAgents ↔
        ∀ env ∈ [Sample.envelope ["in"] "out" none], ∀ other ∈ [Sample.envelope ["in"] "out" none],
          env.agentPubkey = (Sample.compositor 1).pubkeyHex →
            selfVerifies Sample.crypto env = false → ¬Contradicts Sample.crypto env other) :=
  forged_same_verdict_iff [] Sample.framing_invalid Sample.honest_signs_once

/-- An unsigned envelope excludes the author it names and leaves no history. -/
theorem forged_frames_author :
    selfVerifies Sample.crypto Sample.framingEnvelope = false ∧
      SignsOnce Sample.crypto
        ([Sample.envelope ["in"] "out" none] ++ [Sample.framingEnvelope])
        (Sample.compositor 1).pubkeyHex ∧
      (Sample.compositor 1).pubkeyHex ∈ (assessResilience Sample.crypto
        ([Sample.envelope ["in"] "out" none] ++ [Sample.framingEnvelope])).quarantinedAgents ∧
      (Sample.compositor 1).pubkeyHex ∉
        (assessResilience Sample.crypto [Sample.envelope ["in"] "out" none]).quarantinedAgents ∧
      ¬SameVerdict (assessResilience Sample.crypto
          ([Sample.envelope ["in"] "out" none] ++ [Sample.framingEnvelope]))
        (assessResilience Sample.crypto [Sample.envelope ["in"] "out" none]) := by
  have alone := Sample.one_envelope_alone (Sample.envelope ["in"] "out" none)
  have included : ¬(Equivocates Sample.crypto [Sample.envelope ["in"] "out" none]
      Sample.framingEnvelope.agentPubkey ∨ Sample.framingEnvelope.agentPubkey ∈ ([] : List String)) := by
    rintro (own | listed)
    · exact alone _ own
    · cases listed
  refine ⟨Sample.framing_invalid, ?_, ?_, ?_, ?_⟩
  · intro env held other held' author verified verified' differ
    have genuine : ∀ env ∈ [Sample.envelope ["in"] "out" none] ++ [Sample.framingEnvelope],
        selfVerifies Sample.crypto env = true → env = Sample.envelope ["in"] "out" none := by
      intro env held verified
      rw [List.mem_append, List.mem_singleton, List.mem_singleton] at held
      obtain rfl | rfl := held
      · rfl
      · rw [Sample.framing_invalid] at verified
        cases verified
    rw [genuine env held verified, genuine other held' verified'] at differ
    exact differ.2 rfl
  · rw [mem_quarantined_iff, equivocates_concat_iff]
    exact Or.inl (Or.inr ⟨rfl, _, List.mem_singleton_self _, Sample.framing_contradicts⟩)
  · rw [mem_quarantined_iff]
    rintro (own | listed)
    · exact alone _ own
    · cases listed
  · rw [sameVerdict_of_included Sample.framing_invalid included]
    rintro ⟨lost, -⟩
    exact lost Sample.honest_keeps_history

end Gyza

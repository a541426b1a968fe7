import Gyza.Lib.HashChain
import Gyza.Lib.SlidingWindow
import Gyza.LineageRuns

/-! The rate cap of an agent (`AgentRunner._execute`, `_complete`): the count is taken
before the artifact, the envelope is stamped after it. -/

namespace Gyza

open SlidingWindow (Capped)
open Spawn (Agent ExecuteResult Execution)

namespace Lineage

variable {ι : Type} [DecidableEq ι] (fleet : Fleet ι) (runner : ι) (windowNs : Int)

/-- The fleet, what one of its runners has signed (oldest first), and the clock. A
reading of `time.time_ns()` counts from the epoch, so it is a natural number. -/
structure Metered (ι : Type) where
  cluster : Cluster ι
  signed : List ICPEnvelope := []
  clock : Nat := 0

/-- An action with the clock reading it takes, or an envelope stored by anything else. -/
inductive Event (ι : Type) where
  | act (action : Action ι) (nowNs : Nat)
  | absorb (env : ICPEnvelope)

namespace Cluster

/-- The count the cap is compared with; nothing where its query raises. -/
def recentActions (cluster : Cluster ι) (who : ι) (nowNs : Nat) : Option Nat :=
  (countAgentEnvelopesSince cluster.envelopes (fleet.keys who).pubkeyHex
    (max 0 (nowNs - windowNs))).toOption

/-- The action with what it reads: an execution its count, a completion its timestamp. -/
def reading (cluster : Cluster ι) (nowNs : Nat) : Action ι → Action ι
  | .execute who execution =>
      .execute who { execution with
        recentActions := cluster.recentActions fleet windowNs who nowNs }
  | .complete who _ completedAtNs => .complete who nowNs completedAtNs
  | action => action

/-- The envelopes the action has the runner sign. -/
def signs (cluster : Cluster ι) (nowNs : Nat) : Action ι → List ICPEnvelope
  | .complete who _ _ =>
      if who = runner then
        match (cluster.runners runner).phase with
        | .executed item result =>
            [signAction fleet runner item result (cluster.runners runner).lastEnvelope nowNs]
        | _ => []
      else []
  | _ => []

end Cluster

namespace Metered

def step (state : Metered ι) : Event ι → Metered ι
  | .act action nowNs => {
      cluster := state.cluster.step fleet (state.cluster.reading fleet windowNs nowNs action)
      signed := state.signed ++ state.cluster.signs fleet runner nowNs action
      clock := nowNs }
  | .absorb env => { state with
      cluster := { state.cluster with
        envelopes := afterStore fleet.crypto state.cluster.envelopes env } }

/-- No other runner of the fleet has the runner's key. -/
def OnlyRunner : Prop :=
  ∀ other, other ≠ runner → (fleet.keys other).pubkeyHex ≠ (fleet.keys runner).pubkeyHex

/-- The clock does not fall, what the runner signs is stored, the runner stays the same
object, and no other envelope names its agent. -/
def Alone (state : Metered ι) : Event ι → Prop
  | .act action nowNs => state.clock ≤ nowNs ∧ action ≠ .restart runner ∧
      ∀ env ∈ state.cluster.signs fleet runner nowNs action,
        ∃ stored, storeEnvelope fleet.crypto state.cluster.envelopes env = .ok stored
  | .absorb env => env.agentPubkey ≠ (fleet.keys runner).pubkeyHex

/-- A check has found room for the item the runner has executed. -/
def Room (cap : Nat) (state : Metered ι) : Prop :=
  ∃ check, check ≤ state.clock ∧
    state.signed.countP (fun env => max 0 ((check : Int) - windowNs) ≤ env.timestampNs) < cap

structure WithinCap (cap : Nat) (state : Metered ι) : Prop where
  stored : ∀ env ∈ state.signed, state.cluster.envelopes.get? (computeEnvelopeHash fleet.crypto env) =
    some (envelopeRow fleet.crypto env)
  own : ∀ env ∈ state.signed, env.agentPubkey = (fleet.keys runner).pubkeyHex ∧ 0 ≤ env.timestampNs
  chained : HashChain.Linked ICPEnvelope.parentEnvelopeHash
    (fun env => some (computeEnvelopeHash fleet.crypto env)) none state.signed
  last : (state.cluster.runners runner).lastEnvelope.map (computeEnvelopeHash fleet.crypto) =
    HashChain.head (fun env => some (computeEnvelopeHash fleet.crypto env)) none state.signed
  room : ∀ item result, (state.cluster.runners runner).phase = .executed item result →
    state.Room windowNs cap
  capped : Capped (windowNs : ℝ) cap (state.signed.map fun env => (env.timestampNs : ℝ))

end Metered

variable {fleet} {runner} {windowNs}

/-! What an action does to the log and to the runner. -/

namespace Cluster

variable {cluster : Cluster ι}

theorem execute_checksRate {agent : Agent} {item : WorkItem} {posting left : Spawn.Posting}
    {execution : Execution} {result : ExecuteResult}
    (done : Spawn.execute agent item posting execution = (left, .ok result)) :
    Spawn.checkRate agent execution.recentActions = .ok () := by
  have passed : ∃ fields, Spawn.checkResult agent execution = .ok fields := by
    unfold Spawn.execute at done
    split at done
    · cases done
    · exact ⟨_, by assumption⟩
  rcases passed with ⟨fields, checked⟩
  unfold Spawn.checkResult at checked
  split at checked
  · cases checked
  · split at checked
    · cases checked
    · rename_i given _
      cases enforced : Spawn.checkEnforcement agent (Audit.enforcementOf given) with
      | error error => simp [enforced, bind, Except.bind] at checked
      | ok _ =>
          cases rated : Spawn.checkRate agent execution.recentActions with
          | error error => simp [enforced, rated, bind, Except.bind] at checked
          | ok _ => rfl

/-- Only an execution that passed the cap leaves a runner with a result to sign. -/
theorem phase_step (action : Action ι) {item : WorkItem} {result : ExecuteResult}
    (working : ((cluster.step fleet action).runners runner).phase = .executed item result) :
    (cluster.runners runner).phase = .executed item result ∨
      ∃ execution, action = .execute runner execution ∧
        Spawn.checkRate (fleet.agents runner) execution.recentActions = .ok () := by
  have other : ∀ (next : Cluster ι) (who : ι) (changed : Runner),
      next.runners = cluster.runners → runner ≠ who →
        ((next.set who changed).runners runner).phase = .executed item result →
          (cluster.runners runner).phase = .executed item result := by
    intro next who changed same apart phase
    simpa [Cluster.set, same, Function.update_of_ne apart] using phase
  cases action with
  | postIntent intentId goalSpecJson createdAtNs => exact Or.inl working
  | postRoot posted isRoot => exact Or.inl working
  | reclaim leaseNs nowNs => exact Or.inl working
  | restart who =>
      left
      by_cases own : runner = who
      · subst own
        simp [Cluster.step, Cluster.set] at working
      · exact other cluster who _ rfl own working
  | claim who workItemId hlcL hlcC hlcNode claimantTier =>
      left
      simp only [Cluster.step, Cluster.claimed] at working
      split at working
      · split_ifs at working
        · by_cases own : runner = who
          · subst own
            simp [Cluster.set] at working
          · exact other _ who _ rfl own working
        · exact working
      · exact working
  | complete who timestampNs completedAtNs =>
      left
      simp only [Cluster.step, Cluster.completed] at working
      split at working
      · by_cases own : runner = who
        · subst own
          simp [Cluster.set] at working
        · exact other _ who _ rfl own working
      · exact working
  | execute who execution =>
      by_cases own : runner = who
      · subst own
        simp only [Cluster.step, Cluster.executed] at working
        split at working
        · split at working
          · simp [Cluster.set] at working
          · split at working
            · rename_i done
              exact Or.inr ⟨execution, rfl, execute_checksRate done⟩
            · simp [Cluster.set] at working
        · exact Or.inl working
      · left
        simp only [Cluster.step, Cluster.executed] at working
        split at working
        · split at working
          · exact other _ who _ rfl own working
          · split at working
            · exact other _ who _ rfl own working
            · exact other _ who _ rfl own working
        · exact working

/-- No action but a completion writes to the log, and only a restart forgets. -/
theorem quiet_step (action : Action ι) (keeps : ∀ who timestampNs completedAtNs,
      action ≠ .complete who timestampNs completedAtNs) (stays : action ≠ .restart runner) :
    (cluster.step fleet action).Signed runner cluster.envelopes
      (cluster.runners runner).lastEnvelope := by
  have start : cluster.Signed runner cluster.envelopes (cluster.runners runner).lastEnvelope :=
    ⟨rfl, rfl⟩
  cases action with
  | postIntent intentId goalSpecJson createdAtNs => exact ⟨rfl, rfl⟩
  | postRoot item isRoot => exact ⟨rfl, rfl⟩
  | reclaim leaseNs nowNs => exact ⟨rfl, rfl⟩
  | claim who workItemId hlcL hlcC hlcNode claimantTier =>
      exact start.claimed who workItemId hlcL hlcC hlcNode claimantTier
  | execute who execution => exact start.executed who execution
  | complete who timestampNs completedAtNs => exact absurd rfl (keeps who timestampNs completedAtNs)
  | restart who =>
      have apart : runner ≠ who := by
        rintro rfl
        exact stays rfl
      exact ⟨rfl, by simp [Cluster.step, Cluster.set, Function.update_of_ne apart]⟩

end Cluster

/-! The log holds every envelope of the runner, so a count misses none of them. -/

/-- A store leaves the row of an envelope with another payload. -/
theorem get?_afterStore_other (ideal : Function.Injective crypto.blake3) (log : EnvelopeLog)
    {env kept : ICPEnvelope} (differs : env.unsigned ≠ kept.unsigned) :
    (afterStore crypto log env).get? (computeEnvelopeHash crypto kept) =
      log.get? (computeEnvelopeHash crypto kept) := by
  by_cases fits : FitsInt64 env.timestampNs
  · rw [afterStore_fits fits, Table.get?_insertOrReplace, if_neg]
    exact fun same => differs ((computeEnvelopeHash_eq_iff ideal env kept).mp same)
  · rw [afterStore_overflow fits]

namespace Metered

variable {cap : Nat} {state : Metered ι}

omit [DecidableEq ι] in
theorem hashes_nodup (ideal : Function.Injective fleet.crypto.blake3) {signed : List ICPEnvelope}
    (chained : HashChain.Linked ICPEnvelope.parentEnvelopeHash
      (fun env => some (computeEnvelopeHash fleet.crypto env)) none signed) :
    (signed.map fun env => some (computeEnvelopeHash fleet.crypto env)).Nodup := by
  apply HashChain.links_nodup none signed _ (by simp) chained
  intro env _ other _ same
  have payload := (computeEnvelopeHash_eq_iff ideal env other).mp (Option.some.inj same)
  have parents := congrArg ICPEnvelope.parentEnvelopeHash payload
  exact parents

omit [DecidableEq ι] in
theorem WithinCap.counted (ideal : Function.Injective fleet.crypto.blake3)
    (within : state.WithinCap fleet runner windowNs cap) {originNs : Int} {used : Nat}
    (count : countAgentEnvelopesSince state.cluster.envelopes (fleet.keys runner).pubkeyHex originNs =
      .ok used) :
    state.signed.countP (fun env => originNs ≤ env.timestampNs) ≤ used := by
  unfold countAgentEnvelopesSince at count
  split_ifs at count with fits
  cases count
  rw [List.countP_eq_length_filter, List.countP_eq_length_filter,
    ← List.length_map (envelopeRow fleet.crypto)]
  apply List.Subperm.length_le
  apply List.Nodup.subperm
  · have distinct := hashes_nodup ideal within.chained
    have rows : (state.signed.map (envelopeRow fleet.crypto)).Nodup := by
      apply List.Nodup.of_map (fun row : EnvelopeRow => some row.envelopeHash)
      rw [List.map_map]
      exact distinct
    exact rows.sublist (List.filter_sublist.map _)
  · intro row member
    rcases List.mem_map.mp member with ⟨env, listed, rfl⟩
    rcases List.mem_filter.mp listed with ⟨signed, since⟩
    apply List.mem_filter.mpr
    refine ⟨((Table.get?_eq_some _ _ _).mp (within.stored env signed)).1, ?_⟩
    exact decide_eq_true ⟨(within.own env signed).1, of_decide_eq_true since⟩

omit [DecidableEq ι] in
/-- What signs nothing of the runner keeps the invariant. -/
theorem WithinCap.keep (within : state.WithinCap fleet runner windowNs cap) {next : Cluster ι}
    {clock : Nat} (later : state.clock ≤ clock)
    (rows : ∀ env ∈ state.signed, next.envelopes.get? (computeEnvelopeHash fleet.crypto env) =
      state.cluster.envelopes.get? (computeEnvelopeHash fleet.crypto env))
    (last : (next.runners runner).lastEnvelope = (state.cluster.runners runner).lastEnvelope)
    (phases : ∀ item result, (next.runners runner).phase = .executed item result →
      (state.cluster.runners runner).phase = .executed item result ∨
        (⟨next, state.signed, clock⟩ : Metered ι).Room windowNs cap) :
    (⟨next, state.signed, clock⟩ : Metered ι).WithinCap fleet runner windowNs cap where
  stored env member := (rows env member).trans (within.stored env member)
  own := within.own
  chained := within.chained
  last := by
    rw [last]
    exact within.last
  room item result working := by
    rcases phases item result working with before | room
    · rcases within.room item result before with ⟨check, early, few⟩
      exact ⟨check, early.trans later, few⟩
    · exact room
  capped := within.capped

omit [DecidableEq ι] in
theorem WithinCap.storeOther (ideal : Function.Injective fleet.crypto.blake3)
    (within : state.WithinCap fleet runner windowNs cap) {env : ICPEnvelope}
    (foreign : env.agentPubkey ≠ (fleet.keys runner).pubkeyHex) :
    ∀ kept ∈ state.signed, (afterStore fleet.crypto state.cluster.envelopes env).get?
        (computeEnvelopeHash fleet.crypto kept) =
      state.cluster.envelopes.get? (computeEnvelopeHash fleet.crypto kept) := by
  intro kept member
  apply get?_afterStore_other ideal
  intro same
  exact foreign ((congrArg ICPEnvelope.agentPubkey same).trans (within.own kept member).1)

omit [DecidableEq ι] in
/-- A check that passes has found fewer envelopes of the runner than the cap. -/
theorem WithinCap.check (ideal : Function.Injective fleet.crypto.blake3)
    (capped : (specFromManifest (fleet.agents runner).python.str
      (.dict (fleet.agents runner).manifest)).rateCap = some (cap : Int))
    (within : state.WithinCap fleet runner windowNs cap) {nowNs : Nat}
    (passed : Spawn.checkRate (fleet.agents runner)
      (state.cluster.recentActions fleet windowNs runner nowNs) = .ok ()) (next : Cluster ι) :
    (⟨next, state.signed, nowNs⟩ : Metered ι).Room windowNs cap := by
  refine ⟨nowNs, le_rfl, ?_⟩
  unfold Spawn.checkRate at passed
  rw [capped] at passed
  dsimp only at passed
  split at passed
  · cases passed
  · rename_i used given
    split_ifs at passed with full
    have count : countAgentEnvelopesSince state.cluster.envelopes (fleet.keys runner).pubkeyHex
        (max 0 ((nowNs : Int) - windowNs)) = .ok used := by
      unfold Cluster.recentActions at given
      cases answer : countAgentEnvelopesSince state.cluster.envelopes (fleet.keys runner).pubkeyHex
          (max 0 ((nowNs : Int) - windowNs)) with
      | error error => simp [answer, Except.toOption] at given
      | ok found =>
          rw [answer] at given
          exact congrArg Except.ok (Option.some.inj given)
    have few := within.counted ideal count
    dsimp only
    omega

omit [DecidableEq ι] in
/-- A signature that had room at its check leaves every window within the cap. -/
theorem WithinCap.sign (ideal : Function.Injective fleet.crypto.blake3)
    (within : state.WithinCap fleet runner windowNs cap) {item : WorkItem} {result : ExecuteResult}
    (working : (state.cluster.runners runner).phase = .executed item result) {nowNs : Nat}
    (later : state.clock ≤ nowNs) {next : Cluster ι} {env : ICPEnvelope}
    (signature : env = signAction fleet runner item result
      (state.cluster.runners runner).lastEnvelope nowNs)
    (fits : FitsInt64 env.timestampNs)
    (log : next.envelopes = afterStore fleet.crypto state.cluster.envelopes env)
    (last : (next.runners runner).lastEnvelope = some env)
    (idle : (next.runners runner).phase = .idle) :
    (⟨next, state.signed ++ [env], nowNs⟩ : Metered ι).WithinCap fleet runner windowNs cap := by
  have parent : env.parentEnvelopeHash =
      HashChain.head (fun env => some (computeEnvelopeHash fleet.crypto env)) none state.signed := by
    rw [← within.last, signature]
    rfl
  have stamped : env.timestampNs = nowNs := by
    rw [signature]
    rfl
  have chained : HashChain.Linked ICPEnvelope.parentEnvelopeHash
      (fun env => some (computeEnvelopeHash fleet.crypto env)) none (state.signed ++ [env]) :=
    (HashChain.linked_append none state.signed env).mpr ⟨within.chained, parent⟩
  have distinct := hashes_nodup ideal chained
  rw [List.map_append, List.nodup_append] at distinct
  refine ⟨?_, ?_, chained, ?_, ?_, ?_⟩
  · intro kept member
    dsimp only
    rw [log, afterStore_fits fits, Table.get?_insertOrReplace]
    rcases List.mem_append.mp member with old | new
    · rw [if_neg, within.stored kept old]
      intro same
      exact distinct.2.2 _ (List.mem_map_of_mem old) _ (List.mem_map_of_mem (List.mem_singleton_self env))
        (congrArg some same.symm)
    · rw [List.mem_singleton.mp new]
      exact if_pos rfl
  · intro kept member
    rcases List.mem_append.mp member with old | new
    · exact within.own kept old
    · rw [List.mem_singleton.mp new, stamped]
      refine ⟨?_, Int.natCast_nonneg nowNs⟩
      rw [signature]
      rfl
  · rw [HashChain.head_append, last]
    rfl
  · intro item' result' working'
    rw [idle] at working'
    cases working'
  · rw [List.map_append, List.map_singleton]
    rcases within.room item result working with ⟨check, early, few⟩
    have waited : ((check : Int) : ℝ) ≤ (env.timestampNs : ℝ) := by
      rw [stamped]
      exact_mod_cast early.trans later
    apply within.capped.append waited
    · rw [List.countP_map]
      apply lt_of_le_of_lt _ few
      apply List.countP_mono_left
      intro kept member since
      have reached : ((check : Int) : ℝ) - windowNs ≤ (kept.timestampNs : ℝ) :=
        of_decide_eq_true since
      have back : (check : Int) - windowNs ≤ kept.timestampNs := by exact_mod_cast reached
      exact decide_eq_true (max_le (within.own kept member).2 back)

theorem WithinCap.complete (ideal : Function.Injective fleet.crypto.blake3)
    (only : OnlyRunner fleet runner) (within : state.WithinCap fleet runner windowNs cap) {who : ι}
    {timestampNs completedAtNs : Int} {nowNs : Nat}
    (alone : state.Alone fleet runner (.act (.complete who timestampNs completedAtNs) nowNs)) :
    (state.step fleet runner windowNs
      (.act (.complete who timestampNs completedAtNs) nowNs)).WithinCap fleet runner windowNs cap := by
  rcases alone with ⟨later, _, stores⟩
  simp only [step, Cluster.reading, Cluster.step, Cluster.completed]
  by_cases own : who = runner
  · subst own
    cases working : (state.cluster.runners who).phase with
    | idle =>
        simp only [Cluster.signs, working, if_true, List.append_nil]
        exact within.keep later (fun _ _ => rfl) rfl fun _ _ phase => Or.inl phase
    | claimed item =>
        simp only [Cluster.signs, working, if_true, List.append_nil]
        exact within.keep later (fun _ _ => rfl) rfl fun _ _ phase => Or.inl phase
    | executed item result =>
        simp only [Cluster.signs, working, if_true, List.forall_mem_singleton] at stores ⊢
        have fits : FitsInt64 (signAction fleet who item result
            (state.cluster.runners who).lastEnvelope nowNs).timestampNs := by
          rcases stores with ⟨stored, done⟩
          unfold storeEnvelope at done
          split_ifs at done with fits
          exact fits
        apply within.sign ideal working later rfl fits
        · simp only [Cluster.set]
        · simp [Cluster.set]
        · simp [Cluster.set]
  · simp only [Cluster.signs, if_neg own, List.append_nil]
    split
    · apply within.keep later
      · simp only [Cluster.set]
        exact within.storeOther ideal (only who own)
      · simp [Cluster.set, Function.update_of_ne (Ne.symm own)]
      · intro item result phase
        left
        simpa [Cluster.set, Function.update_of_ne (Ne.symm own)] using phase
    · exact within.keep later (fun _ _ => rfl) rfl fun _ _ phase => Or.inl phase

/-- Without a completion nothing is signed, and room comes only from a check. -/
theorem WithinCap.quiet (ideal : Function.Injective fleet.crypto.blake3)
    (capped : (specFromManifest (fleet.agents runner).python.str
      (.dict (fleet.agents runner).manifest)).rateCap = some (cap : Int))
    (within : state.WithinCap fleet runner windowNs cap) {action : Action ι} {nowNs : Nat}
    (keeps : ∀ who timestampNs completedAtNs, action ≠ .complete who timestampNs completedAtNs)
    (alone : state.Alone fleet runner (.act action nowNs)) :
    (state.step fleet runner windowNs (.act action nowNs)).WithinCap fleet runner windowNs cap := by
  rcases alone with ⟨later, stays, _⟩
  have nothing : state.cluster.signs fleet runner nowNs action = [] := by
    cases action with
    | complete who timestampNs completedAtNs => exact absurd rfl (keeps who timestampNs completedAtNs)
    | _ => rfl
  have same : (state.cluster.step fleet (state.cluster.reading fleet windowNs nowNs action)).Signed
      runner state.cluster.envelopes (state.cluster.runners runner).lastEnvelope := by
    apply Cluster.quiet_step
    · intro who timestampNs completedAtNs
      cases action with
      | complete other _ _ => exact absurd rfl (keeps other _ _)
      | _ => simp [Cluster.reading]
    · cases action with
      | restart who => exact stays
      | _ => simp [Cluster.reading]
  simp only [step, nothing, List.append_nil]
  apply within.keep later
  · intro env _
    rw [same.log]
  · exact same.last
  · intro item result working
    rcases Cluster.phase_step _ working with before | ⟨execution, read, passed⟩
    · exact Or.inl before
    · right
      cases action with
      | execute who given =>
          simp only [Cluster.reading, Action.execute.injEq] at read
          rcases read with ⟨rfl, rfl⟩
          exact within.check ideal capped passed _
      | _ => simp [Cluster.reading] at read

theorem step_withinCap (ideal : Function.Injective fleet.crypto.blake3)
    (only : OnlyRunner fleet runner)
    (capped : (specFromManifest (fleet.agents runner).python.str
      (.dict (fleet.agents runner).manifest)).rateCap = some (cap : Int))
    (state : Metered ι) (event : Event ι) (within : state.WithinCap fleet runner windowNs cap)
    (alone : state.Alone fleet runner event) :
    (state.step fleet runner windowNs event).WithinCap fleet runner windowNs cap := by
  cases event with
  | absorb env =>
      exact within.keep le_rfl (within.storeOther ideal alone) rfl fun _ _ phase => Or.inl phase
  | act action nowNs =>
      by_cases completes : ∃ who timestampNs completedAtNs,
          action = .complete who timestampNs completedAtNs
      · rcases completes with ⟨who, timestampNs, completedAtNs, rfl⟩
        exact within.complete ideal only alone
      · push Not at completes
        exact within.quiet ideal capped completes alone

omit [DecidableEq ι] in
theorem withinCap_start {start : Cluster ι} (unsigned : (start.runners runner).lastEnvelope = none)
    (idle : (start.runners runner).phase = .idle) :
    (⟨start, [], 0⟩ : Metered ι).WithinCap fleet runner windowNs cap where
  stored := by simp
  own := by simp
  chained := trivial
  last := by simp [unsigned]
  room item result working := by
    rw [idle] at working
    cases working
  capped := SlidingWindow.capped_nil _ _

/-- In every window of the rate cap's width, wherever it opens, a runner that is its
agent's only source of envelopes signs no more of them than its manifest's cap. -/
theorem rate_cap_every_window (fleet : Fleet ι) (runner : ι) (windowNs : Int)
    (ideal : Function.Injective fleet.crypto.blake3) (only : OnlyRunner fleet runner) (rateCap : Int)
    (capped : (specFromManifest (fleet.agents runner).python.str
      (.dict (fleet.agents runner).manifest)).rateCap = some rateCap)
    (start : Cluster ι) (unsigned : (start.runners runner).lastEnvelope = none)
    (idle : (start.runners runner).phase = .idle) (events : List (Event ι))
    (alone : Run.Admissible (step fleet runner windowNs) (Alone fleet runner) ⟨start, [], 0⟩ events)
    (t : ℝ) :
    (((Run.run (step fleet runner windowNs) ⟨start, [], 0⟩ events).signed.filter fun env =>
      t < (env.timestampNs : ℝ) ∧ (env.timestampNs : ℝ) ≤ t + windowNs).length : Int) ≤ rateCap := by
  have positive : 0 < rateCap := PyValue.Value.positiveInt_pos capped
  rcases Int.eq_ofNat_of_zero_le positive.le with ⟨cap, rfl⟩
  have within := Run.invariant_run (step fleet runner windowNs) (Alone fleet runner)
    (WithinCap fleet runner windowNs cap) (step_withinCap ideal only capped) _ events
    (withinCap_start unsigned idle) alone
  have bounded := within.capped t
  rw [List.countP_map, List.countP_eq_length_filter] at bounded
  exact_mod_cast bounded

theorem signs_stored (cluster : Cluster ι) {nowNs : Nat} (fits : FitsInt64 nowNs)
    (action : Action ι) (log : EnvelopeLog) :
    ∀ env ∈ cluster.signs fleet runner nowNs action,
      ∃ stored, storeEnvelope fleet.crypto log env = .ok stored := by
  intro env member
  have stamped : env.timestampNs = nowNs := by
    unfold Cluster.signs at member
    split at member
    · split_ifs at member
      · split at member
        · rw [List.mem_singleton.mp member]
          rfl
        · cases member
      · cases member
    · cases member
  refine ⟨(computeEnvelopeHash fleet.crypto env,
    log.insertOrReplace (envelopeRow fleet.crypto env)), ?_⟩
  rw [storeEnvelope, stamped, if_pos fits]

/-- Actions whose readings rise and fit the column are all a runner does. -/
theorem admissible_acts (state : Metered ι) (acts : List (Action ι × Nat))
    (rising : (state.clock :: acts.map Prod.snd).IsChain (· ≤ ·))
    (fits : ∀ act ∈ acts, act.1 ≠ .restart runner ∧ FitsInt64 act.2) :
    Run.Admissible (step fleet runner windowNs) (Alone fleet runner) state
      (acts.map fun act => .act act.1 act.2) := by
  induction acts generalizing state with
  | nil => trivial
  | cons act rest ih =>
      rw [List.map_cons, List.isChain_cons_cons] at rising
      rcases fits act List.mem_cons_self with ⟨stays, column⟩
      refine ⟨⟨rising.1, stays, signs_stored _ column _ _⟩, ?_⟩
      apply ih _ rising.2
      intro other member
      exact fits other (List.mem_cons_of_mem _ member)

end Metered

end Lineage

namespace Sample

open Lineage (Action Event)

/-- The sample runner with one action to a window. -/
def cappedRunners : Lineage.Fleet Unit :=
  { runners with
    agents := fun _ => { planner with
      manifest := [("capabilities", .dict [("spawn", .dict [
        ("resource_budget", .dict [("action_rate_cap", .int 1)])])])] }
    shared := fun _ => rfl
    named := runners.named }

/-- Two items; the second is refused at time 3 and signed after the window of 10. -/
def cappedActs : List (Action Unit × Nat) :=
  [(.postIntent "intent-1" "goal" 1, 0), (.postRoot firstItem firstItem_root, 0), (.postRoot sampleItem sampleItem_root, 0),
    (claimOf "item-0", 1), (.execute () report, 1), (.complete () 0 2, 2),
    (claimOf "item-1", 3), (.execute () report, 3), (.complete () 0 4, 4),
    (claimOf "item-1", 20), (.execute () report, 20), (.complete () 0 21, 21)]

def cappedEvents : List (Event Unit) := cappedActs.map fun act => .act act.1 act.2

end Sample

open Lineage Metered in
theorem rate_cap_every_window_sample :
    (((Run.run (step Sample.cappedRunners () 10) ⟨Cluster.start, [], 0⟩
        Sample.cappedEvents).signed.filter fun env =>
      (1 : ℝ) < (env.timestampNs : ℝ) ∧ (env.timestampNs : ℝ) ≤ 1 + ((10 : Int) : ℝ)).length : Int) ≤ 1 ∧
    (Run.run (step Sample.cappedRunners () 10) ⟨Cluster.start, [], 0⟩
      Sample.cappedEvents).signed.map ICPEnvelope.timestampNs = [2, 21] := by
  refine ⟨?_, by decide +kernel⟩
  apply rate_cap_every_window Sample.cappedRunners () 10 Sample.blake3_injective _ 1 rfl
    Cluster.start rfl rfl Sample.cappedEvents
  · apply admissible_acts
    · decide
    · simp [Sample.cappedActs, Sample.claimOf, FitsInt64]
  · intro other apart
    exact absurd rfl apart

end Gyza

import Gyza.LineageRuns
import Gyza.Resilience

/-! One runner's loop (`AgentRunner._run_loop`, `_execute`, `_complete`, `_release`), and how
many envelopes it signs for one work item. -/

namespace Gyza

open Lineage (Fleet gatherInputs signAction verifyLineage)
open Spawn (ExecuteResult Execution)

/-! An item that is completed under a claim is never served again. -/

def Sealed (board : Board) (workItemId : String) : Prop :=
  ∃ row, board.items.get? workItemId = some row ∧ row.completedAtNs ≠ none ∧ row.claimedBy ≠ none

section Sealed

variable {board next : Board} {workItemId : String}

theorem Sealed.same (done : Sealed board workItemId)
    (kept : next.items.get? workItemId = board.items.get? workItemId) : Sealed next workItemId := by
  rcases done with ⟨row, stored, completed, claimed⟩
  exact ⟨row, kept.trans stored, completed, claimed⟩

theorem Sealed.boardStep (done : Sealed board workItemId) (call : BoardCall) :
    Sealed (Gyza.boardStep board call) workItemId := by
  rcases done with ⟨row, stored, completed, claimed⟩
  obtain ⟨after, reached, changes⟩ := boardStep_changes stored call
  refine ⟨after, reached, ?_⟩
  cases changes with
  | kept => exact ⟨completed, claimed⟩
  | claimed => exact ⟨completed, Option.some_ne_none _⟩
  | merged => exact ⟨completed, Option.some_ne_none _⟩
  | finished => exact ⟨Option.some_ne_none _, claimed⟩
  | completed => exact ⟨Option.some_ne_none _, claimed⟩
  | released _ uncompleted => exact absurd uncompleted completed
  | reclaimed uncompleted => exact absurd uncompleted completed

/-- An execution only adds rows. -/
theorem Sealed.execute (done : Sealed board workItemId) (agent : Spawn.Agent) (item : WorkItem)
    (posting : Spawn.Posting) (execution : Execution) (own : posting.board = board) :
    Sealed (Spawn.execute agent item posting execution).1.board workItemId := by
  subst own
  rcases @Spawn.execute_grows agent item posting execution with same | ⟨_, grows⟩
  · rw [same]
    exact done
  · rcases grows workItemId with kept | ⟨absent, _⟩
    · exact done.same kept
    · rcases done with ⟨row, stored, _⟩
      rw [absent] at stored
      cases stored

end Sealed

namespace AgentRunner

variable {ι : Type}

/-- `POLL_CANDIDATES`. -/
def pollCandidates : Int := 128

/-- One of the runners, and how it reaches the board. -/
structure Loop (ι : Type) where
  fleet : Fleet ι
  runner : ι
  /-- `attestation_tier` of its manifest. -/
  attestedTier : Int
  minReward : Float
  /-- Claims and completions are proposed to the cluster. -/
  viaRaft : Bool

/-- Where the loop is; it works on the copy of the item that it was served. -/
inductive Phase where
  | idle
  | chosen (item : WorkItem)
  | verified (item : WorkItem)
  | claimed (item : WorkItem)
  | executed (item : WorkItem) (result : ExecuteResult)
  | signed (item : WorkItem) (result : ExecuteResult) (envelope : ICPEnvelope)

/-- The item the loop works on and has not signed for. -/
def Phase.unsigned? : Phase → Option WorkItem
  | .chosen item => some item
  | .verified item => some item
  | .claimed item => some item
  | .executed item _ => some item
  | _ => none

/-- The item whose envelope is signed and not yet followed by the completion. -/
def Phase.signed? : Phase → Option WorkItem
  | .signed item _ _ => some item
  | _ => none

theorem Phase.signed_of_unsigned {phase : Phase} {item : WorkItem}
    (working : phase.unsigned? = some item) : phase.signed? = none := by
  cases phase with
  | signed other result envelope => cases working
  | _ => rfl

structure State where
  board : Board
  envelopes : EnvelopeLog
  phase : Phase := .idle
  lastEnvelope : Option ICPEnvelope := none
  /-- The ids drawn so far. -/
  drawn : Nat := 0
  recentlyFailed : List String := []
  /-- All envelopes that the runner has signed, whether they were stored or not. -/
  signed : List ICPEnvelope := []

/-- What becomes of `complete_work_item`: the board gets the call, and may refuse it; the
storage fails, which is swallowed; or it raises what is not, and the item is released. -/
inductive Write where
  | sent
  | swallowed
  | raised (released : Bool)

inductive Event where
  /-- A call by anyone: other runners, the gossip, the reclaiming at the top of a loop. -/
  | board (call : BoardCall)
  | logged (env : ICPEnvelope)
  /-- The board serves its items, and the loop takes one of them. -/
  | poll (workItemId : String) (nowNs : Int)
  | verify
  | claim (hlcL hlcC : Int) (hlcNode : String)
  | execute (execution : Execution) (released : Bool)
  | sign (timestampNs : Int) (stored : Bool)
  | complete (completedAtNs : Int) (write : Write)
  /-- The process ends, wherever it is, and starts again with its key. -/
  | restart

section Steps

variable (loop : Loop ι)

def Loop.agentId : String := (loop.fleet.keys loop.runner).pubkeyHex

/-- A served item that the loop has not failed on. -/
def offered (state : State) (workItemId : String) (nowNs : Int) : Option WorkItem :=
  match state.board.getUnclaimed loop.minReward loop.attestedTier (some pollCandidates) nowNs with
  | .ok served =>
      (served.filter (fun item => item.id ∉ state.recentlyFailed)).find?
        (fun item => item.id = workItemId)
  | .error _ => none

/-- Whether the lineage is not checked, or verifies; nothing where the check raises. -/
def lineageVerdict (state : State) (item : WorkItem) : Option Bool :=
  if loop.fleet.verifyChainBeforeClaim loop.runner && item.parentId.isSome then
    verifyLineage loop.fleet.crypto (loop.fleet.strictChainVerification loop.runner) state.board
      state.envelopes item
  else some true

/-- The cluster applies a claim without the tier of the claimant. -/
def appliedTier : Option Int := if loop.viaRaft then none else some loop.attestedTier

/-- The cluster applies a completion without its owner. -/
def expectedOwner : Option String := if loop.viaRaft then none else some loop.agentId

/-- `_tier_permits`. -/
def tierPermits (board : Board) (workItemId : String) : Bool :=
  (board.items.get? workItemId).all (fun row => row.requiredTier ≤ loop.attestedTier)

def wins (board : Board) (workItemId : String) (hlcL hlcC : Int) (hlcNode : String) : Bool :=
  (!loop.viaRaft || tierPermits loop board workItemId) &&
    Lineage.Cluster.wins board workItemId loop.agentId hlcL hlcC hlcNode (appliedTier loop)

/-- `_require_attested_tier`, the inputs, and the execution: what it leaves, and a result
with the item it was run on. -/
def executed (state : State) (item : WorkItem) (execution : Execution) :
    Spawn.Posting × Option (WorkItem × ExecuteResult) :=
  let posting : Spawn.Posting := { board := state.board, drawn := state.drawn }
  if loop.attestedTier < item.requiredTier then (posting, none)
  else
    match gatherInputs state.board item with
    | none => (posting, none)
    | some gathered =>
        match Spawn.execute (loop.fleet.agents loop.runner) gathered posting execution with
        | (left, .ok result) => (left, some (gathered, result))
        | (left, .error _) => (left, none)

/-- `_release`, whose board call may fail. -/
def release (state : State) (item : WorkItem) (released : Bool) : State :=
  { state with
    board := if released then boardStep state.board (.releaseClaim item.id) else state.board
    recentlyFailed := item.id :: state.recentlyFailed
    phase := .idle }

/-- What `_complete` asks of the board. -/
def completion (item : WorkItem) (result : ExecuteResult) (envelope : ICPEnvelope)
    (completedAtNs : Int) : BoardCall :=
  .completeWorkItem item.id result.outputHash (computeEnvelopeHash loop.fleet.crypto envelope) true
    completedAtNs (expectedOwner loop)

def step (state : State) : Event → State
  | .board call => { state with board := boardStep state.board call }
  | .logged env => { state with envelopes := afterStore loop.fleet.crypto state.envelopes env }
  | .poll workItemId nowNs =>
      match state.phase, offered loop state workItemId nowNs with
      | .idle, some item => { state with phase := .chosen item }
      | _, _ => state
  | .verify =>
      match state.phase with
      | .chosen item =>
          match lineageVerdict loop state item with
          | some true => { state with phase := .verified item }
          | some false =>
              { state with recentlyFailed := item.id :: state.recentlyFailed, phase := .idle }
          | none => { state with phase := .idle }
      | _ => state
  | .claim hlcL hlcC hlcNode =>
      match state.phase with
      | .verified item =>
          if wins loop state.board item.id hlcL hlcC hlcNode then
            { state with
              board := boardStep state.board (.tryClaim item.id loop.agentId hlcL hlcC hlcNode
                (appliedTier loop))
              phase := .claimed item }
          else { state with phase := .idle }
      | _ => state
  | .execute execution released =>
      match state.phase with
      | .claimed item =>
          match executed loop state item execution with
          | (left, some (gathered, result)) =>
              { state with
                board := left.board, drawn := left.drawn, phase := .executed gathered result }
          | (left, none) =>
              release { state with board := left.board, drawn := left.drawn } item released
      | _ => state
  | .sign timestampNs stored =>
      match state.phase with
      | .executed item result =>
          let envelope := signAction loop.fleet loop.runner item result state.lastEnvelope timestampNs
          { state with
            envelopes :=
              if stored then afterStore loop.fleet.crypto state.envelopes envelope
              else state.envelopes
            lastEnvelope := some envelope
            signed := state.signed ++ [envelope]
            phase := .signed item result envelope }
      | _ => state
  | .complete completedAtNs write =>
      match state.phase with
      | .signed item result envelope =>
          match write with
          | .sent =>
              { state with
                board := boardStep state.board (completion loop item result envelope completedAtNs)
                phase := .idle }
          | .swallowed => { state with phase := .idle }
          | .raised released => release state item released
      | _ => state
  | .restart => { state with phase := .idle, lastEnvelope := none, recentlyFailed := [] }

/-- A runner before its first round, on any board. -/
def start (board : Board) (envelopes : EnvelopeLog) : State := { board, envelopes }

/-- In every state of the run, the runner has signed one envelope at most for an action,
and is found to equivocate on none. -/
def NeverEquivocates (state : State) (events : List Event) : Prop :=
  ∀ front back, events = front ++ back →
    (∀ env ∈ (Run.run (step loop) state front).signed,
      ∀ other ∈ (Run.run (step loop) state front).signed,
        env.intentId = other.intentId → env.actionId = other.actionId → env = other) ∧
    detectEquivocation loop.fleet.crypto (Run.run (step loop) state front).signed = []

/-- The board accepts the completion on a claimed row. -/
def Lands (board : Board) (workItemId : String) (completedAtNs : Int) : Prop :=
  FitsInt64 completedAtNs ∧ ∃ row, board.items.get? workItemId = some row ∧ row.claimedBy ≠ none ∧
    (expectedOwner loop = none ∨ row.claimedBy = expectedOwner loop)

/-- Every completion of an item that is open reaches the board and is accepted there, unless
it raises what the loop remembers; and no process ends before what it signed is completed. -/
def Settles (state : State) : Event → Prop
  | .complete completedAtNs write => ∀ item, state.phase.signed? = some item →
      Sealed state.board item.id ∨
        match write with
        | .sent => Lands loop state.board item.id completedAtNs
        | .swallowed => False
        | .raised _ => True
  | .restart => ∀ env ∈ state.signed, Sealed state.board env.actionId
  | _ => True

end Steps

/-! What the loop keeps: it works on nothing that it has signed for. -/

variable {loop : Loop ι} {state next : State}

structure Sound (state : State) : Prop where
  distinct : (state.signed.map ICPEnvelope.actionId).Nodup
  settled : ∀ env ∈ state.signed, Sealed state.board env.actionId ∨
    env.actionId ∈ state.recentlyFailed ∨
      ∃ item, state.phase.signed? = some item ∧ item.id = env.actionId
  apart : ∀ item, state.phase.unsigned? = some item → ∀ env ∈ state.signed, env.actionId ≠ item.id

theorem sound_start (board : Board) (envelopes : EnvelopeLog) : Sound (start board envelopes) where
  distinct := List.nodup_nil
  settled := by simp [start]
  apart := by simp [start]

/-- A step that signs nothing, and takes up nothing that is signed. -/
theorem Sound.quiet (sound : Sound state) (signed : next.signed = state.signed)
    (seals : ∀ id, Sealed state.board id → Sealed next.board id)
    (failed : ∀ id ∈ state.recentlyFailed, id ∈ next.recentlyFailed)
    (finished : ∀ item, state.phase.signed? = some item → next.phase.signed? = some item ∨
      Sealed next.board item.id ∨ item.id ∈ next.recentlyFailed)
    (taken : ∀ item, next.phase.unsigned? = some item → ∀ env ∈ state.signed, env.actionId ≠ item.id) :
    Sound next where
  distinct := by
    rw [signed]
    exact sound.distinct
  settled := by
    intro env member
    rw [signed] at member
    rcases sound.settled env member with done | passed | ⟨item, open_, own⟩
    · exact Or.inl (seals _ done)
    · exact Or.inr (Or.inl (failed _ passed))
    · rcases finished item open_ with still | done | passed
      · exact Or.inr (Or.inr ⟨item, still, own⟩)
      · exact Or.inl (own ▸ done)
      · exact Or.inr (Or.inl (own ▸ passed))
  apart := by
    rw [signed]
    exact taken

theorem offered_spec {workItemId : String} {nowNs : Int} {item : WorkItem}
    (served : offered loop state workItemId nowNs = some item) :
    state.board.items.get? item.id = some item ∧ item.claimedBy = none ∧
      item.id ∉ state.recentlyFailed := by
  unfold offered at served
  split at served
  · next listed returned =>
      have member := List.mem_filter.mp (List.mem_of_find?_eq_some served)
      obtain ⟨stored, unclaimed⟩ := getUnclaimed_ok returned item member.1
      refine ⟨(Table.mem_rows _ item).mp stored, unclaimed, ?_⟩
      simpa using member.2
  · cases served

/-- What is served is not signed. -/
theorem Sound.offered (sound : Sound state) (idle : state.phase.signed? = none) {workItemId : String}
    {nowNs : Int} {item : WorkItem}
    (served : AgentRunner.offered loop state workItemId nowNs = some item) :
    ∀ env ∈ state.signed, env.actionId ≠ item.id := by
  obtain ⟨stored, unclaimed, unfailed⟩ := offered_spec served
  intro env member same
  rcases sound.settled env member with ⟨row, found, _, claimed⟩ | passed | ⟨other, open_, _⟩
  · rw [same, stored] at found
    cases found
    exact claimed unclaimed
  · exact unfailed (same ▸ passed)
  · rw [idle] at open_
    cases open_

/-- An execution keeps what is sealed, and its item. -/
theorem executed_seals (item : WorkItem) (execution : Execution) (id : String)
    (done : Sealed state.board id) : Sealed (executed loop state item execution).1.board id := by
  unfold executed
  simp only
  split_ifs
  · exact done
  · split
    · exact done
    · next gathered _ =>
        have kept := done.execute (loop.fleet.agents loop.runner) gathered
          { board := state.board, drawn := state.drawn } execution rfl
        split
        · next same =>
            rw [same] at kept
            exact kept
        · next same =>
            rw [same] at kept
            exact kept

theorem executed_id {item gathered : WorkItem} {execution : Execution} {left : Spawn.Posting}
    {result : ExecuteResult}
    (ran : executed loop state item execution = (left, some (gathered, result))) :
    gathered.id = item.id := by
  unfold executed at ran
  simp only at ran
  split_ifs at ran
  · cases ran
  · split at ran
    · cases ran
    · next made =>
        split at ran
        · cases ran
          exact (Lineage.Cluster.gatherInputs_fields made).1
        · cases ran

/-- The loop gives up an item that it has not signed for, or moves on with it. -/
theorem Sound.working (sound : Sound state) {item : WorkItem}
    (phase : state.phase.unsigned? = some item) (signed : next.signed = state.signed)
    (seals : ∀ id, Sealed state.board id → Sealed next.board id)
    (failed : ∀ id ∈ state.recentlyFailed, id ∈ next.recentlyFailed)
    (same : ∀ other, next.phase.unsigned? = some other → other.id = item.id) : Sound next := by
  apply sound.quiet signed seals failed
  · intro other open_
    rw [Phase.signed_of_unsigned phase] at open_
    cases open_
  · intro other taken
    rw [same other taken]
    exact sound.apart item phase

theorem release_seals (item : WorkItem) (released : Bool) (id : String)
    (done : Sealed state.board id) : Sealed (release state item released).board id := by
  cases released with
  | false => exact done
  | true => exact done.boardStep (.releaseClaim item.id)

theorem Sound.poll (sound : Sound state) (workItemId : String) (nowNs : Int) :
    Sound (step loop state (.poll workItemId nowNs)) := by
  simp only [step]
  split
  · next item idle served =>
      refine sound.quiet rfl (fun _ done => done) (fun _ passed => passed) ?_ ?_
      · intro other open_
        rw [idle] at open_
        cases open_
      · intro other taken
        cases taken
        exact sound.offered (by rw [idle]; rfl) served
  · exact sound

theorem Sound.verify (sound : Sound state) : Sound (step loop state .verify) := by
  simp only [step]
  split
  · next item chosen =>
      have phase : state.phase.unsigned? = some item := by rw [chosen]; rfl
      split
      · refine sound.working phase rfl (fun _ done => done) (fun _ passed => passed) ?_
        rintro other ⟨⟩
        rfl
      · refine sound.working phase rfl (fun _ done => done)
          (fun _ passed => List.mem_cons_of_mem _ passed) ?_
        rintro other ⟨⟩
      · refine sound.working phase rfl (fun _ done => done) (fun _ passed => passed) ?_
        rintro other ⟨⟩
  · exact sound

theorem Sound.claim (sound : Sound state) (hlcL hlcC : Int) (hlcNode : String) :
    Sound (step loop state (.claim hlcL hlcC hlcNode)) := by
  simp only [step]
  split
  · next item verified =>
      have phase : state.phase.unsigned? = some item := by rw [verified]; rfl
      split_ifs
      · refine sound.working phase rfl (fun _ done => done.boardStep _) (fun _ passed => passed) ?_
        rintro other ⟨⟩
        rfl
      · refine sound.working phase rfl (fun _ done => done) (fun _ passed => passed) ?_
        rintro other ⟨⟩
  · exact sound

theorem Sound.execute (sound : Sound state) (execution : Execution) (released : Bool) :
    Sound (step loop state (.execute execution released)) := by
  simp only [step]
  split
  · next item claimed =>
      have phase : state.phase.unsigned? = some item := by rw [claimed]; rfl
      have seals := @executed_seals ι loop state item execution
      split
      · next left gathered result ran =>
          rw [ran] at seals
          refine sound.working phase rfl seals (fun _ passed => passed) ?_
          rintro other ⟨⟩
          exact executed_id ran
      · next left ran =>
          rw [ran] at seals
          refine sound.working phase rfl (fun id done => release_seals item released id (seals id done))
            (fun _ passed => List.mem_cons_of_mem _ passed) ?_
          rintro other ⟨⟩
  · exact sound

/-- The one step that signs: the action is a new one, and the phase holds it. -/
theorem Sound.sign (sound : Sound state) (timestampNs : Int) (stored : Bool) :
    Sound (step loop state (.sign timestampNs stored)) := by
  simp only [step]
  split
  · next item result executed =>
      have fresh := sound.apart item (by rw [executed]; rfl)
      exact {
        distinct := by
          rw [List.map_append, List.nodup_append]
          refine ⟨sound.distinct, List.nodup_singleton _, ?_⟩
          intro id member own named
          obtain ⟨env, held, rfl⟩ := List.mem_map.mp member
          have signs : own = item.id := List.mem_singleton.mp named
          rw [signs]
          exact fresh env held
        settled := by
          intro env member
          rcases List.mem_append.mp member with held | new
          · rcases sound.settled env held with done | passed | ⟨other, open_, _⟩
            · exact Or.inl done
            · exact Or.inr (Or.inl passed)
            · rw [executed] at open_
              cases open_
          · rw [List.mem_singleton.mp new]
            exact Or.inr (Or.inr ⟨item, rfl, rfl⟩)
        apart := by
          rintro other ⟨⟩ }
  · exact sound

theorem lands_seals {board : Board} {item : WorkItem} {completedAtNs : Int}
    (lands : Lands loop board item.id completedAtNs) (result : ExecuteResult)
    (envelope : ICPEnvelope) :
    Sealed (boardStep board (completion loop item result envelope completedAtNs)) item.id := by
  rcases lands with ⟨fits, row, stored, claimed, owner⟩
  have after := completeWorkItem_get? board item.id result.outputHash
    (computeEnvelopeHash loop.fleet.crypto envelope) true completedAtNs (expectedOwner loop) item.id
  have keyed : row.id = item.id := ((Table.get?_eq_some _ _ _).mp stored).2
  rw [stored, Option.map_some, if_pos ⟨fits, (completes_iff _ _ row).mpr ⟨keyed, owner⟩⟩] at after
  exact ⟨_, after, Option.some_ne_none _, claimed⟩

theorem Sound.complete (sound : Sound state) (completedAtNs : Int) (write : Write)
    (settles : Settles loop state (.complete completedAtNs write)) :
    Sound (step loop state (.complete completedAtNs write)) := by
  simp only [step]
  split
  · next item result envelope signed =>
      have settled := settles item (by rw [signed]; rfl)
      have only : ∀ other, state.phase.signed? = some other → other = item := by
        intro other open_
        rw [signed] at open_
        cases open_
        rfl
      cases write with
      | sent =>
          refine sound.quiet rfl (fun _ done => done.boardStep _) (fun _ passed => passed) ?_ ?_
          · intro other open_
            rw [only other open_]
            rcases settled with done | lands
            · exact Or.inr (Or.inl (done.boardStep _))
            · exact Or.inr (Or.inl (lands_seals lands result envelope))
          · rintro other ⟨⟩
      | swallowed =>
          refine sound.quiet rfl (fun _ done => done) (fun _ passed => passed) ?_ ?_
          · intro other open_
            rw [only other open_]
            rcases settled with done | lost
            · exact Or.inr (Or.inl done)
            · exact lost.elim
          · rintro other ⟨⟩
      | raised released =>
          refine sound.quiet rfl (release_seals item released)
            (fun _ passed => List.mem_cons_of_mem _ passed) ?_ ?_
          · intro other open_
            rw [only other open_]
            exact Or.inr (Or.inr List.mem_cons_self)
          · rintro other ⟨⟩
  · exact sound

theorem Sound.restart (sound : Sound state) (settles : Settles loop state .restart) :
    Sound (step loop state .restart) where
  distinct := sound.distinct
  settled := fun env member => Or.inl (settles env member)
  apart := by
    rintro item ⟨⟩

theorem Sound.step (sound : Sound state) (event : Event) (settles : Settles loop state event) :
    Sound (AgentRunner.step loop state event) := by
  cases event with
  | board call =>
      exact sound.quiet rfl (fun _ done => done.boardStep call) (fun _ passed => passed)
        (fun _ open_ => Or.inl open_) sound.apart
  | logged env =>
      exact sound.quiet rfl (fun _ done => done) (fun _ passed => passed)
        (fun _ open_ => Or.inl open_) sound.apart
  | poll workItemId nowNs => exact sound.poll workItemId nowNs
  | verify => exact sound.verify
  | claim hlcL hlcC hlcNode => exact sound.claim hlcL hlcC hlcNode
  | execute execution released => exact sound.execute execution released
  | sign timestampNs stored => exact sound.sign timestampNs stored
  | complete completedAtNs write => exact sound.complete completedAtNs write settles
  | restart => exact sound.restart settles

/-- One envelope for each action leaves nothing to detect. -/
theorem Sound.detects_nothing (sound : Sound state) (crypto : Crypto) :
    detectEquivocation crypto state.signed = [] := by
  apply List.eq_nil_iff_forall_not_mem.mpr
  intro found detected
  obtain ⟨env, held, _, other, held', keys, apart⟩ :=
    (mem_detected_iff state.signed found.agentPubkey).mp ⟨found, detected, rfl⟩
  have actions : env.actionId = other.actionId := congrArg (fun key => key.2.2) keys
  have same : env = other := List.inj_on_of_nodup_map sound.distinct held held' actions
  exact apart (congrArg _ same)

/-- Over every run in which completions land and no process ends between a signature and
its completion, a runner signs one envelope at most for an action. -/
theorem runner_signs_once (loop : Loop ι) (board : Board) (envelopes : EnvelopeLog)
    (events : List Event)
    (settles : Run.Admissible (step loop) (Settles loop) (start board envelopes) events) :
    NeverEquivocates loop (start board envelopes) events := by
  intro front back split
  rw [split, Run.admissible_append] at settles
  have sound : Sound (Run.run (step loop) (start board envelopes) front) :=
    Run.invariant_run (step loop) (Settles loop) Sound
      (fun _ event sound allowed => sound.step event allowed) (start board envelopes) front
      (sound_start board envelopes) settles.1
  refine ⟨?_, sound.detects_nothing _⟩
  intro env held other held' _ actions
  exact List.inj_on_of_nodup_map sound.distinct held held' actions

end AgentRunner

namespace Sample

open AgentRunner (Event Loop)

def localLoop : Loop Unit where
  fleet := runners
  runner := ()
  attestedTier := 0
  minReward := 0
  viaRaft := false

/-- An item that is served for an hour. -/
def hourItem : WorkItem := { sampleItem with ttlNs := 3600000000000 }

def hourBoard : Board :=
  Run.run boardStep Board.empty [.postIntent "intent-1" "goal" 1, .postWorkItem hourItem]

/-- The item is served at the millisecond, claimed, executed and signed. -/
def signingRound (atMs : Int) : List Event :=
  [.poll "item-1" (atMs * 1000000), .verify, .claim atMs 0 "node", .execute report true,
    .sign (atMs * 1000000) true]

def landedRound : List Event := signingRound 1 ++ [.complete 2000000 .sent]

/-- The completion is lost, the lease expires, and the same runner is served again. -/
def servedTwice : List Event :=
  signingRound 1 ++ [.complete 2000000 .swallowed, .board (.reclaimExpiredClaims none 900002000000)] ++
    signingRound 900003

end Sample

open AgentRunner in
theorem runner_signs_once_sample :
    NeverEquivocates Sample.localLoop (start Sample.hourBoard Table.empty)
        (Sample.landedRound ++ Sample.signingRound 900003) ∧
      (Run.run (step Sample.localLoop) (start Sample.hourBoard Table.empty)
        (Sample.landedRound ++ Sample.signingRound 900003)).signed.map
          (fun env => (env.actionId, env.timestampNs)) = [("item-1", 1000000)] := by
  refine ⟨?_, by decide +kernel⟩
  apply runner_signs_once
  rw [Sample.landedRound, Run.admissible_append, Run.admissible_append]
  refine ⟨⟨⟨trivial, trivial, trivial, trivial, trivial, trivial⟩, ?_, trivial⟩,
    ⟨trivial, trivial, trivial, trivial, trivial, trivial⟩⟩
  intro item open_
  have open' : (Run.run (step Sample.localLoop) (start Sample.hourBoard Table.empty)
      (Sample.signingRound 1)).phase.signed?.map WorkItem.id = some "item-1" := by
    decide +kernel
  rw [open_, Option.map_some] at open'
  have held : ((Run.run (step Sample.localLoop) (start Sample.hourBoard Table.empty)
      (Sample.signingRound 1)).board.items.get? "item-1").map WorkItem.claimedBy =
        some (some Sample.localLoop.agentId) := by
    decide +kernel
  rcases Option.map_eq_some_iff.mp held with ⟨row, stored, claimed⟩
  right
  refine ⟨by decide, row, ?_, ?_, Or.inr claimed⟩
  · rw [Option.some.inj open']
    exact stored
  · rw [claimed]
    exact Option.some_ne_none _

open AgentRunner in
/-- The same action is signed at two times, which is found. -/
theorem runner_equivocates :
    ¬NeverEquivocates Sample.localLoop (start Sample.hourBoard Table.empty) Sample.servedTwice ∧
      detectEquivocation Sample.crypto (Run.run (step Sample.localLoop)
        (start Sample.hourBoard Table.empty) Sample.servedTwice).signed ≠ [] := by
  have signed : (Run.run (step Sample.localLoop) (start Sample.hourBoard Table.empty)
      Sample.servedTwice).signed.map (fun env => (actionKey env, env.timestampNs)) =
        [((Sample.localLoop.agentId, "intent-1", "item-1"), 1000000),
          ((Sample.localLoop.agentId, "intent-1", "item-1"), 900003000000)] := by
    decide +kernel
  obtain ⟨first, rest, all, firstFields, others⟩ := List.map_eq_cons_iff.mp signed
  obtain ⟨second, _, rfl, secondFields, _⟩ := List.map_eq_cons_iff.mp others
  obtain ⟨firstKey, firstTime⟩ := Prod.mk.inj firstFields
  obtain ⟨secondKey, secondTime⟩ := Prod.mk.inj secondFields
  have times : first.timestampNs ≠ second.timestampNs := by
    rw [firstTime, secondTime]
    decide
  have contradicts : Contradicts Sample.crypto first second := by
    refine ⟨firstKey.trans secondKey.symm, ?_⟩
    rw [Ne, computeEnvelopeHash_eq_iff Sample.blake3_injective]
    intro same
    have unsigned : first.unsigned.timestampNs = second.unsigned.timestampNs := by rw [same]
    exact times unsigned
  have found : detectEquivocation Sample.crypto (Run.run (step Sample.localLoop)
      (start Sample.hourBoard Table.empty) Sample.servedTwice).signed ≠ [] := by
    rw [all]
    intro nothing
    obtain ⟨equivocation, detected, _⟩ := (mem_detected_iff _ first.agentPubkey).mpr
      ⟨first, List.mem_cons_self, rfl, second, List.mem_cons_of_mem _ List.mem_cons_self,
        contradicts⟩
    rw [nothing] at detected
    exact List.not_mem_nil detected
  refine ⟨?_, found⟩
  intro never
  exact found (never Sample.servedTwice [] (List.append_nil _).symm).2

end Gyza

import Gyza.BoardRuns
import Gyza.ClaimMerge

/-! Claims by several threads that share one clock (`NetworkBlackboard.try_claim`).

`HLC.now` and `HLC.recv` hold the clock's lock and a claim is one transaction, but the
delta of a claim is built afterwards from `hlc.l`, `hlc.c` and `hlc.node_id`, read one
by one. Every such step is one step here. -/

namespace Gyza

open Run (run Admissible)

structure ClaimRequest where
  workItemId : String
  agentPubkey : String
  claimantTier : Option Int
  deriving DecidableEq

/-- Where a thread is in `try_claim`. Past the transaction it is followed by the stamp
that the transaction left in the row; the code keeps none. -/
inductive ClaimPhase where
  | idle
  | drawn (request : ClaimRequest) (stamp : Int × Int × String)
  | won (request : ClaimRequest) (stored : Option (Int × Int × String))
  | readL (request : ClaimRequest) (stored : Option (Int × Int × String)) (l : Int)
  | readC (request : ClaimRequest) (stored : Option (Int × Int × String)) (l c : Int)
  deriving DecidableEq

/-- A claim that was gossiped, and the stamp its transaction stored. -/
structure Gossiped where
  update : ClaimUpdate
  stored : Option (Int × Int × String)

/-- A node with gossip attached; its runners' threads and its receiver share the clock. -/
structure ClaimingNode (τ : Type) where
  board : Board
  hlc : Hlc
  threads : τ → ClaimPhase
  published : List Gossiped

/-- `recv` is the receiver's, `tick` any other `now()`, and `call` any other write. -/
inductive ClaimAct (τ : Type) where
  | draw (thread : τ) (request : ClaimRequest) (pt : Int)
  | commit (thread : τ)
  | readL (thread : τ)
  | readC (thread : τ)
  | publish (thread : τ)
  | recv (pt l c : Int) (node : String)
  | tick (pt : Int)
  | call (call : BoardCall)

section Threads

variable {τ : Type} [DecidableEq τ]

namespace ClaimingNode

def goOn (node : ClaimingNode τ) (thread : τ) (phase : ClaimPhase) : ClaimingNode τ :=
  { node with threads := Function.update node.threads thread phase }

/-- A claim that loses or raises returns without a delta. -/
def step (node : ClaimingNode τ) : ClaimAct τ → ClaimingNode τ
  | .draw thread request pt =>
      match node.threads thread with
      | .idle =>
          { node.goOn thread (.drawn request (node.hlc.now pt).1) with hlc := (node.hlc.now pt).2 }
      | _ => node
  | .commit thread =>
      match node.threads thread with
      | .drawn request (l, c, hlcNode) =>
          match node.board.tryClaimDirect request.workItemId request.agentPubkey l c hlcNode
              request.claimantTier with
          | .ok (true, board) =>
              { node.goOn thread
                  (.won request ((board.items.get? request.workItemId).map WorkItem.stamp)) with
                board := board }
          | _ => node.goOn thread .idle
      | _ => node
  | .readL thread =>
      match node.threads thread with
      | .won request stored => node.goOn thread (.readL request stored node.hlc.l)
      | _ => node
  | .readC thread =>
      match node.threads thread with
      | .readL request stored l => node.goOn thread (.readC request stored l node.hlc.c)
      | _ => node
  | .publish thread =>
      match node.threads thread with
      | .readC request stored l c =>
          { node.goOn thread .idle with
            published := node.published ++ [{
              update := ⟨request.workItemId, request.agentPubkey, node.hlc.nodeId, l, c,
                node.hlc.nodeId⟩
              stored := stored }] }
      | _ => node
  | .recv pt l c sender => { node with hlc := node.hlc.recv pt l c sender }
  | .tick pt => { node with hlc := (node.hlc.now pt).2 }
  | .call call => { node with board := boardStep node.board call }

/-- The thread of a won claim reads the clock while it shows what the row got. -/
def StillShown (node : ClaimingNode τ) : ClaimAct τ → Prop
  | .readL thread => ∀ request stored, node.threads thread = .won request stored →
      stored.map Prod.fst = some node.hlc.l
  | .readC thread => ∀ request stored l, node.threads thread = .readL request stored l →
      stored.map (fun stamp => stamp.2.1) = some node.hlc.c
  | _ => True

end ClaimingNode

/-- The delta carries the stamp of the row. -/
def Gossiped.Matches (claim : Gossiped) : Prop := claim.stored = some claim.update.stamp

instance (claim : Gossiped) : Decidable claim.Matches := inferInstanceAs (Decidable (_ = _))

/-- What is known of a thread while all reads are in time. -/
def ClaimPhase.Sound (nodeId : String) : ClaimPhase → Prop
  | .idle => True
  | .drawn _ stamp => stamp.2.2 = nodeId
  | .won _ stored => ∃ l c, stored = some (l, c, nodeId)
  | .readL _ stored l => ∃ c, stored = some (l, c, nodeId)
  | .readC _ stored l c => stored = some (l, c, nodeId)

/-- A read of the clock came too late. -/
def ClaimPhase.Flawed : ClaimPhase → Prop
  | .readL _ stored l => stored.map Prod.fst ≠ some l
  | .readC _ stored l c =>
      stored.map Prod.fst ≠ some l ∨ stored.map (fun stamp => stamp.2.1) ≠ some c
  | _ => False

namespace ClaimingNode

structure Sound (node : ClaimingNode τ) : Prop where
  threads : ∀ thread, (node.threads thread).Sound node.hlc.nodeId
  published : ∀ claim ∈ node.published, claim.Matches

/-- A delta went out with another stamp, or some thread is about to send one. -/
def Flawed (node : ClaimingNode τ) : Prop :=
  (∃ claim ∈ node.published, ¬claim.Matches) ∨ ∃ thread, (node.threads thread).Flawed

variable {node : ClaimingNode τ}

/-- A claim that wins leaves its own stamp in the row. -/
theorem stored_of_won {board next : Board} {workItemId agentPubkey hlcNode : String} {l c : Int}
    {claimantTier : Option Int}
    (won : board.tryClaimDirect workItemId agentPubkey l c hlcNode claimantTier = .ok (true, next)) :
    (next.items.get? workItemId).map WorkItem.stamp = some (l, c, hlcNode) := by
  unfold Board.tryClaimDirect at won
  split at won
  · cases won
  · rename_i row stored
    split_ifs at won with held tier fits
    · cases won
    · cases won
    · cases won
      have keyed := ((Table.get?_eq_some _ _ _).mp stored).2
      simp [Table.get?_update, stored, keyed, not_not.mp held, WorkItem.stamp, WorkItem.withClaim]

theorem sound_goOn (sound : ∀ thread, (node.threads thread).Sound node.hlc.nodeId) (thread : τ)
    {phase : ClaimPhase} (next : phase.Sound node.hlc.nodeId) (other : τ) :
    ((node.goOn thread phase).threads other).Sound node.hlc.nodeId := by
  by_cases own : other = thread
  · subst own
    simpa [goOn] using next
  · simpa [goOn, Function.update_of_ne own] using sound other

/-- A step whose read is in time keeps every thread and delta sound. -/
theorem sound_step (node : ClaimingNode τ) (act : ClaimAct τ) (sound : node.Sound)
    (shown : node.StillShown act) : (node.step act).Sound := by
  cases act with
  | draw thread request pt =>
      simp only [step]
      split
      · exact ⟨sound_goOn sound.threads thread rfl, sound.published⟩
      · exact sound
  | commit thread =>
      simp only [step]
      split
      · rename_i request l c hlcNode phase
        have named : hlcNode = node.hlc.nodeId := by
          have drawn := sound.threads thread
          rw [phase] at drawn
          exact drawn
        split
        · rename_i board won
          refine ⟨sound_goOn sound.threads thread ?_, sound.published⟩
          exact ⟨l, c, named ▸ stored_of_won won⟩
        · exact ⟨sound_goOn sound.threads thread trivial, sound.published⟩
      · exact sound
  | readL thread =>
      simp only [step]
      split
      · rename_i request stored phase
        have won := sound.threads thread
        rw [phase] at won
        rcases won with ⟨l, c, rfl⟩
        have same : l = node.hlc.l := Option.some.inj (shown request _ phase)
        exact ⟨sound_goOn sound.threads thread ⟨c, by rw [same]⟩, sound.published⟩
      · exact sound
  | readC thread =>
      simp only [step]
      split
      · rename_i request stored l phase
        have read := sound.threads thread
        rw [phase] at read
        rcases read with ⟨c, rfl⟩
        have same : c = node.hlc.c := Option.some.inj (shown request _ l phase)
        refine ⟨sound_goOn sound.threads thread ?_, sound.published⟩
        rw [same]
        rfl
      · exact sound
  | publish thread =>
      simp only [step]
      split
      · rename_i request stored l c phase
        have read := sound.threads thread
        rw [phase] at read
        refine ⟨sound_goOn sound.threads thread trivial, ?_⟩
        intro claim member
        rcases List.mem_append.mp member with old | new
        · exact sound.published claim old
        · rw [List.mem_singleton.mp new]
          exact read
      · exact sound
  | recv pt l c sender => exact ⟨sound.threads, sound.published⟩
  | tick pt => exact ⟨sound.threads, sound.published⟩
  | call call => exact ⟨sound.threads, sound.published⟩

/-- The step of one thread leaves the late read of another. -/
theorem flawed_of_other {thread late : τ} {phase : ClaimPhase} {next : ClaimingNode τ}
    (wrong : (node.threads late).Flawed) (apart : late ≠ thread)
    (same : next.threads = (node.goOn thread phase).threads) : next.Flawed := by
  refine Or.inr ⟨late, ?_⟩
  simpa [same, goOn, Function.update_of_ne apart] using wrong

/-- A delta that went out stays out. -/
theorem mem_published_step (act : ClaimAct τ) {claim : Gossiped} (member : claim ∈ node.published) :
    claim ∈ (node.step act).published := by
  cases act with
  | publish thread =>
      simp only [step]
      split
      · exact List.mem_append_left _ member
      · exact member
  | _ =>
      simp only [step]
      repeat' split
      all_goals exact member

/-- A late read shows in a delta in the end: no other step of its thread gets past it. -/
theorem flawed_step (node : ClaimingNode τ) (act : ClaimAct τ) (flawed : node.Flawed) :
    (node.step act).Flawed := by
  rcases flawed with ⟨claim, member, wrong⟩ | ⟨late, wrong⟩
  · exact Or.inl ⟨claim, mem_published_step act member, wrong⟩
  · have passed : ∀ {thread : τ} {phase : ClaimPhase} {next : ClaimingNode τ},
        ¬(node.threads thread).Flawed →
          next.threads = (node.goOn thread phase).threads → next.Flawed := by
      intro thread phase next fine same
      refine flawed_of_other wrong ?_ same
      rintro rfl
      exact fine wrong
    cases act with
    | draw thread request pt =>
        simp only [step]
        split
        · rename_i phase
          exact passed (by simp [phase, ClaimPhase.Flawed]) rfl
        · exact Or.inr ⟨late, wrong⟩
    | commit thread =>
        simp only [step]
        split
        · rename_i phase
          split
          · exact passed (by simp [phase, ClaimPhase.Flawed]) rfl
          · exact passed (by simp [phase, ClaimPhase.Flawed]) rfl
        · exact Or.inr ⟨late, wrong⟩
    | readL thread =>
        simp only [step]
        split
        · rename_i phase
          exact passed (by simp [phase, ClaimPhase.Flawed]) rfl
        · exact Or.inr ⟨late, wrong⟩
    | readC thread =>
        simp only [step]
        split
        · rename_i request stored l phase
          by_cases own : late = thread
          · subst own
            rw [phase] at wrong
            refine Or.inr ⟨late, ?_⟩
            simp only [goOn, Function.update_self]
            exact Or.inl wrong
          · exact flawed_of_other wrong own rfl
        · exact Or.inr ⟨late, wrong⟩
    | publish thread =>
        simp only [step]
        split
        · rename_i request stored l c phase
          by_cases own : late = thread
          · subst own
            rw [phase] at wrong
            refine Or.inl ⟨_, List.mem_append_right _ (List.mem_singleton_self _), ?_⟩
            intro equal
            have stamped : stored = some (l, c, node.hlc.nodeId) := equal
            rw [stamped] at wrong
            rcases wrong with other | other
            · exact other rfl
            · exact other rfl
          · exact flawed_of_other wrong own rfl
        · exact Or.inr ⟨late, wrong⟩
    | recv pt l c sender => exact Or.inr ⟨late, wrong⟩
    | tick pt => exact Or.inr ⟨late, wrong⟩
    | call call => exact Or.inr ⟨late, wrong⟩

theorem flawed_of_late (node : ClaimingNode τ) (act : ClaimAct τ) (late : ¬node.StillShown act) :
    (node.step act).Flawed := by
  cases act with
  | readL thread =>
      simp only [StillShown, not_forall] at late
      rcases late with ⟨request, stored, phase, other⟩
      refine Or.inr ⟨thread, ?_⟩
      simp only [step, phase, goOn, Function.update_self]
      exact other
  | readC thread =>
      simp only [StillShown, not_forall] at late
      rcases late with ⟨request, stored, l, phase, other⟩
      refine Or.inr ⟨thread, ?_⟩
      simp only [step, phase, goOn, Function.update_self]
      exact Or.inr other
  | _ => exact absurd trivial late

/-- While all reads are in time, every gossiped claim is the stored one; and where no
claim is under way at the end, only then. -/
theorem gossiped_claim_stored_iff (start : ClaimingNode τ)
    (idle : ∀ thread, start.threads thread = .idle) (silent : start.published = [])
    (acts : List (ClaimAct τ)) :
    (Admissible step StillShown start acts →
      ∀ claim ∈ (run step start acts).published, claim.Matches) ∧
    ((∀ thread, (run step start acts).threads thread = .idle) →
      (∀ claim ∈ (run step start acts).published, claim.Matches) →
        Admissible step StillShown start acts) := by
  constructor
  · intro shown
    have sound : start.Sound := by
      constructor
      · intro thread
        rw [idle thread]
        trivial
      · simp [silent]
    exact (Run.invariant_run step StillShown Sound sound_step start acts sound shown).published
  · intro finished agree
    apply Run.admissible_of_steps
    intro front act back split
    by_contra late
    have flawed : (run step start acts).Flawed := by
      rw [split, Run.run_append, Run.run_cons]
      exact Run.kept_run step Flawed flawed_step _ back (flawed_of_late _ act late)
    rcases flawed with ⟨claim, member, wrong⟩ | ⟨thread, wrong⟩
    · exact wrong (agree claim member)
    · rw [finished thread] at wrong
      exact wrong

end ClaimingNode

end Threads

/-- Two idle threads over the sample item. -/
def twoThreads : ClaimingNode Bool where
  board := sampleBoard
  hlc := { nodeId := "node" }
  threads := fun _ => .idle
  published := []

def claimSample (agentPubkey : String) : ClaimRequest := ⟨"item-1", agentPubkey, none⟩

/-- One claim from its stamp to its delta, a delivered claim having come in before. -/
def soloClaim : List (ClaimAct Bool) :=
  [.recv 4 7 2 "peer", .draw true (claimSample "agent") 5, .commit true, .readL true, .readC true,
    .publish true]

/-- A second thread draws its stamp before the first one's delta is built, and loses. -/
def racingClaims : List (ClaimAct Bool) :=
  [.draw true (claimSample "agent") 5, .commit true, .draw false (claimSample "other") 5, .readL true,
    .readC true, .publish true, .commit false]

open ClaimingNode in
theorem gossiped_claim_stored_sample :
    (∀ claim ∈ (run step twoThreads soloClaim).published, claim.Matches) ∧
      (run step twoThreads soloClaim).published.map Gossiped.stored = [some (7, 4, "node")] := by
  refine ⟨?_, by decide +kernel⟩
  apply (gossiped_claim_stored_iff twoThreads (fun _ => rfl) rfl soloClaim).1
  refine ⟨trivial, trivial, trivial, ?_, ?_, trivial, trivial⟩
  · intro request stored phase
    have shown : (run step twoThreads (soloClaim.take 3)).threads true =
        .won (claimSample "agent") (some (7, 4, "node")) := by decide +kernel
    cases shown.symm.trans phase
    decide +kernel
  · intro request stored l phase
    have shown : (run step twoThreads (soloClaim.take 4)).threads true =
        .readL (claimSample "agent") (some (7, 4, "node")) 7 := by decide +kernel
    cases shown.symm.trans phase
    decide +kernel

/-- The row has counter 0, the delta counter 1. -/
theorem gossiped_claim_differs :
    ¬∀ claim ∈ (run ClaimingNode.step twoThreads racingClaims).published, claim.Matches := by
  decide +kernel

end Gyza

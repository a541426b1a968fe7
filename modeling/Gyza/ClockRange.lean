import Gyza.ClaimMerge

/-! Whether the stamps a gossip clock issues fit the columns they are stored in, whatever
claims it has merged. -/

namespace Gyza

open Run (run Admissible)

/-- A node and how many stamps its gossip clock has issued. -/
structure Issuing where
  node : NetNode
  issued : Nat

/-- Deltas that arrive, with the physical times read while they are applied, and `now()` calls. -/
inductive ClockInput where
  | deliver (delta : BlackboardDelta) (readings : Nat → Int)
  | now (pt : Int)

def issueStep (state : Issuing) : ClockInput → Issuing
  | .deliver delta readings => { state with node := state.node.applyDelta readings delta }
  | .now pt =>
      ⟨{ state.node with gossipHlc := (state.node.gossipHlc.now pt).2 }, state.issued + 1⟩

/-- A physical time in milliseconds before the year 2262. -/
def PhysicalMs (pt : Int) : Prop := 0 ≤ pt ∧ pt * 1000000 < 2 ^ 63

def ClockInput.Physical : ClockInput → Prop
  | .deliver _ readings => ∀ place, PhysicalMs (readings place)
  | .now pt => PhysicalMs pt

def nowCalls (inputs : List ClockInput) : Nat :=
  inputs.countP (fun input => match input with
    | .deliver _ _ => false
    | .now _ => true)

def StampInRange (stamp : Int × Int × String) : Prop :=
  (0 ≤ stamp.2.1 ∧ stamp.2.1 < 2 ^ 63) ∧ (0 ≤ stamp.1 * 1000000 ∧ stamp.1 * 1000000 < 2 ^ 63)

/-- `try_claim_direct` with the stamp raises on no board. -/
def ClaimableWith (stamp : Int × Int × String) : Prop :=
  ∀ (board : Board) workItemId agentPubkey claimantTier, ∃ result,
    board.tryClaimDirect workItemId agentPubkey stamp.1 stamp.2.1 stamp.2.2 claimantTier = .ok result

/-- Every stamp that `now()` returns along the run is in range, and can be claimed with. -/
def StampsInRange (start : Issuing) (inputs : List ClockInput) : Prop :=
  ∀ front pt rest, inputs = front ++ .now pt :: rest →
    StampInRange ((run issueStep start front).node.gossipHlc.now pt).1 ∧
      ClaimableWith ((run issueStep start front).node.gossipHlc.now pt).1

theorem StampInRange.claimable {stamp : Int × Int × String} (inRange : StampInRange stamp) :
    ClaimableWith stamp := by
  intro board workItemId agentPubkey claimantTier
  rcases inRange with ⟨⟨low, high⟩, nonnegative, before⟩
  have fits : FitsInt64 (stamp.1 * 1000000) ∧ FitsInt64 stamp.1 ∧ FitsInt64 stamp.2.1 := by
    simp only [FitsInt64]
    omega
  simp only [Board.tryClaimDirect, if_pos fits]
  split
  · exact ⟨_, rfl⟩
  · split_ifs <;> exact ⟨_, rfl⟩

/-- The largest counter a clock may reach when it has issued no stamp yet. -/
def counterRoom : Int := 2 ^ 63 - 2 ^ 32

/-- Of the claim and the clock, whichever has the greatest time leaves room in its counter. -/
structure SafeMerge (clock : Hlc) (issued : Nat) (pt l c : Int) : Prop where
  fromClaim : max (max clock.l l) pt = l → c < counterRoom + issued
  notNegative : max (max clock.l l) pt = l → clock.l ≠ l → -2 ≤ c
  fromClock : max (max clock.l l) pt = clock.l → clock.c < counterRoom + issued

def SafeAction (issued : Nat) (readings : Nat → Int) (node : NetNode) : DeltaAction → Prop
  | .claim update place =>
      (∃ row, Merges node.board update.workItemId update.hlcL update.hlcC update.hlcNode row) →
        SafeMerge node.gossipHlc issued (readings place) update.hlcL update.hlcC
  | .intent _ => True
  | .item _ => True
  | .completion _ => True

/-- Every claim that a delta merges is safe when it is merged. -/
def SafeInput (state : Issuing) : ClockInput → Prop
  | .deliver delta readings =>
      delta.senderCompositorPubkey ≠ state.node.gossipHlc.nodeId →
        Run.AllowedUntil (NetNode.applyAction delta.senderCompositorPubkey readings)
          (SafeAction state.issued readings) state.node delta.actions
  | .now _ => True

/-- The clock's time can be stored, and its counter leaves room for the stamps to come. -/
structure ClockSound (clock : Hlc) (issued : Nat) : Prop where
  time : 0 ≤ clock.l ∧ clock.l * 1000000 < 2 ^ 63
  counter : -1 ≤ clock.c ∧ clock.c ≤ counterRoom + issued

theorem now_sound {clock : Hlc} {issued : Nat} (sound : ClockSound clock issued) {pt : Int}
    (physical : PhysicalMs pt) : ClockSound (clock.now pt).2 (issued + 1) := by
  rcases sound with ⟨time, counter⟩
  rcases physical with ⟨nonnegative, before⟩
  have room : (0 : Int) ≤ counterRoom := by decide
  constructor
  · simp only [Hlc.now]
    omega
  · simp only [Hlc.now]
    push_cast
    split_ifs <;> omega

theorem now_in_range {clock : Hlc} {issued : Nat} (sound : ClockSound clock issued)
    (few : issued + 1 < 2 ^ 32) {pt : Int} (physical : PhysicalMs pt) :
    StampInRange (clock.now pt).1 := by
  rcases sound with ⟨time, counter⟩
  rcases physical with ⟨nonnegative, before⟩
  have room : counterRoom = 2 ^ 63 - 2 ^ 32 := rfl
  constructor
  · simp only [Hlc.now]
    split_ifs <;> omega
  · simp only [Hlc.now]
    omega

theorem recv_sound {clock : Hlc} {issued : Nat} (sound : ClockSound clock issued) {pt l c : Int}
    (node : String) (physical : PhysicalMs pt) (fits : FitsInt64 (l * 1000000))
    (safe : SafeMerge clock issued pt l c) : ClockSound (clock.recv pt l c node) issued := by
  rcases sound with ⟨time, counter⟩
  rcases physical with ⟨nonnegative, before⟩
  rcases safe with ⟨fromClaim, notNegative, fromClock⟩
  rcases fits with ⟨_, below⟩
  have room : (0 : Int) ≤ counterRoom := by decide
  constructor
  · simp only [Hlc.recv]
    omega
  · simp only [Hlc.recv]
    split_ifs with both clockOnly claimOnly
    · have claim := fromClaim both.2
      have own := fromClock both.1
      omega
    · have own := fromClock clockOnly
      omega
    · have claim := fromClaim claimOnly
      have apart : clock.l ≠ l := fun same => clockOnly (claimOnly.trans same.symm)
      have low := notNegative claimOnly apart
      omega
    · omega

theorem merges_of_updated {board next : Board} {update : ClaimUpdate}
    (updated : board.mergeClaimDirect update.workItemId update.agentPubkey update.hlcL update.hlcC
      update.hlcNode = .ok (true, next)) :
    ∃ row, Merges board update.workItemId update.hlcL update.hlcC update.hlcNode row := by
  simp only [Board.mergeClaimDirect] at updated
  split at updated
  · cases updated
  · rename_i row stored
    split_ifs at updated with done stale fits
    · cases updated
    · cases updated
    · exact ⟨row, stored, not_not.mp done, stale, fits⟩

theorem applyAction_sound {issued : Nat} {readings : Nat → Int} {sender : String}
    {node next : NetNode} {action : DeltaAction} (sound : ClockSound node.gossipHlc issued)
    (physical : ∀ place, PhysicalMs (readings place))
    (safe : SafeAction issued readings node action)
    (ok : node.applyAction sender readings action = .ok next) : ClockSound next.gossipHlc issued := by
  rcases NetNode.applyAction_cases ok with ⟨_, _, _, _, _, _, rfl⟩ |
    ⟨update, place, board, rfl, updated, rfl⟩ | ⟨_, _, _, rfl⟩
  · exact sound
  · rcases merges_of_updated updated with ⟨row, merges⟩
    exact recv_sound sound update.hlcNode (physical place) merges.fits.1 (safe ⟨row, merges⟩)
  · exact sound

theorem issueStep_sound (state : Issuing) (input : ClockInput)
    (sound : ClockSound state.node.gossipHlc state.issued)
    (allowed : input.Physical ∧ SafeInput state input) :
    ClockSound (issueStep state input).node.gossipHlc (issueStep state input).issued := by
  cases input with
  | deliver delta readings =>
      simp only [issueStep, NetNode.applyDelta]
      split_ifs with own
      · exact sound
      · exact Run.untilError_allowed _ (SafeAction state.issued readings)
          (fun node => ClockSound node.gossipHlc state.issued)
          (fun _ _ _ holds safe ok => applyAction_sound holds allowed.1 safe ok) delta.actions
          state.node sound (allowed.2 own)
  | now pt => exact now_sound sound allowed.1

theorem issued_run (start : Issuing) (inputs : List ClockInput) :
    (run issueStep start inputs).issued = start.issued + nowCalls inputs := by
  induction inputs generalizing start with
  | nil => rfl
  | cons input rest ih =>
      rw [Run.run_cons, ih]
      cases input with
      | deliver delta readings => simp [issueStep, nowCalls]
      | now pt =>
          simp only [issueStep, nowCalls, List.countP_cons]
          simp only [if_true]
          omega

/-- A node whose gossip clock was just created. -/
def attached (board : Board) (nodeId : String) : Issuing :=
  ⟨{ board := board, gossipHlc := { nodeId := nodeId } }, 0⟩

theorem attached_sound (board : Board) (nodeId : String) :
    ClockSound (attached board nodeId).node.gossipHlc (attached board nodeId).issued := by
  constructor
  · exact (by decide : (0 : Int) ≤ 0 ∧ (0 : Int) * 1000000 < 2 ^ 63)
  · exact (by decide : (-1 : Int) ≤ 0 ∧ (0 : Int) ≤ counterRoom + (0 : Nat))

/-- While every merged claim is safe, fewer than `2 ^ 32` stamps are all in range. -/
theorem stamps_in_range_of_safe (board : Board) (nodeId : String) (inputs : List ClockInput)
    (physical : ∀ input ∈ inputs, input.Physical) (few : nowCalls inputs < 2 ^ 32)
    (safe : Admissible issueStep SafeInput (attached board nodeId) inputs) :
    StampsInRange (attached board nodeId) inputs := by
  intro front pt rest split
  have steps := (Run.admissible_iff_steps _ _ _ _).mp safe
  have allowed : Admissible issueStep (fun state input => input.Physical ∧ SafeInput state input)
      (attached board nodeId) front := by
    apply Run.admissible_of_steps
    intro earlier input later inside
    constructor
    · apply physical
      simp [split, inside]
    · apply steps earlier input (later ++ .now pt :: rest)
      rw [split, inside, List.append_assoc, List.cons_append]
  have sound := Run.invariant_run issueStep _
    (fun state => ClockSound state.node.gossipHlc state.issued)
    (fun state input holds step => issueStep_sound state input holds step) _ front
    (attached_sound board nodeId) allowed
  suffices inRange : StampInRange ((run issueStep (attached board nodeId) front).node.gossipHlc.now
      pt).1 from ⟨inRange, inRange.claimable⟩
  apply now_in_range sound
  · have total : nowCalls inputs = nowCalls front + (1 + nowCalls rest) := by
      rw [split, nowCalls, List.countP_append, List.countP_cons, nowCalls, nowCalls]
      simp only [if_true]
      omega
    rw [issued_run]
    simp only [attached]
    omega
  · exact physical (.now pt) (by simp [split])

/-- A claim on the sample item from a peer, far ahead of the physical time, then one stamp. -/
def farClaim (hlcC : Int) : List ClockInput :=
  [.deliver { senderCompositorPubkey := "peer", claimUpdates :=
      [⟨"item-1", "agent", "peer", 9000000000000, hlcC, "peer"⟩] } (fun _ => 1700000000000),
    .now 1700000000000]

theorem farClaim_physical (hlcC : Int) : ∀ input ∈ farClaim hlcC, input.Physical := by
  have reading : PhysicalMs 1700000000000 := ⟨by decide, by decide⟩
  intro input member
  rcases List.mem_cons.mp member with rfl | later
  · exact fun _ => reading
  · rw [List.mem_singleton.mp later]
    exact reading

theorem stamps_in_range_sample : StampsInRange (attached sampleBoard "node") (farClaim 0) := by
  apply stamps_in_range_of_safe sampleBoard "node" (farClaim 0) (farClaim_physical 0) (by decide)
  refine ⟨?_, trivial, trivial⟩
  intro _
  refine ⟨?_, fun _ _ => trivial⟩
  intro _
  constructor
  · intro _
    decide
  · intro _ _
    decide
  · intro same
    exact absurd same (by decide)

/-- A merged claim with the largest counter makes the next stamp unstorable. -/
theorem stamp_out_of_range :
    FitsInt64 9000000000000 ∧ FitsInt64 (2 ^ 63 - 1) ∧
      (∀ input ∈ farClaim (2 ^ 63 - 1), input.Physical) ∧
      ¬StampsInRange (attached sampleBoard "node") (farClaim (2 ^ 63 - 1)) := by
  refine ⟨by decide, by decide, farClaim_physical _, ?_⟩
  intro ranged
  have stamp := ranged ((farClaim (2 ^ 63 - 1)).take 1) 1700000000000 [] rfl
  have counter : ((run issueStep (attached sampleBoard "node")
      ((farClaim (2 ^ 63 - 1)).take 1)).node.gossipHlc.now 1700000000000).1.2.1 = 2 ^ 63 + 1 := by
    decide +kernel
  have below := stamp.1.1.2
  rw [counter] at below
  exact absurd below (by decide)

end Gyza

import Gyza.Cluster
import Gyza.Attestation
import Gyza.Lib.Run

/-! Which keys a cluster node comes to trust, over every sequence of frames. -/

namespace Gyza

open Hex (Bytes)
open PyValue (Fields Value dictGet)

namespace GyzaCluster

/-- The public key that the text spells completed the challenge-response. -/
def KeyProven (completed : List String) (pubkey : String) : Prop :=
  ∀ key, Hex.fromhex pubkey = some key → key.length = 32 →
    ∃ remote ∈ completed, Hex.fromhex remote = some key

/-- Every trusted text spells a key that completed the challenge-response. -/
def OnlyProvenTrusted (cluster : GyzaCluster) : Prop :=
  ∀ pubkey ∈ cluster.trusted, ∃ remote ∈ cluster.completed,
    Hex.fromhex remote = Hex.fromhex pubkey

/-- The handlers that write trust take up a message of this sender. -/
def TakesUp (msgType : Value) (sender : String) (payload : Fields) : Prop :=
  (msgType = .str "cluster_join_request" ∧
      ∃ raftAddr, dictGet payload "raft_addr" .none = .str raftAddr) ∨
    (msgType = .str "cluster_join_response" ∧ (dictGet payload "accept" .none).truthy = true ∧
      ∃ raftAddr, dictGet payload "raft_addr" .none = .str raftAddr) ∨
    (msgType = .str "compositor_pubkey_exchange" ∧
      disagrees (dictGet payload "pubkey" .none) sender = false)

/-- A frame that arrives on an authenticated connection, that names its sender itself and
that such a handler takes up, names a key that completed the challenge-response. -/
def NamesProven (cluster : GyzaCluster) : Event → Prop
  | .frame connection msg =>
      ∀ protocol ∈ cluster.protocols[connection]?, protocol.authenticated = true →
        ∀ sender, dictGet msg "sender" .none = .str sender → sender ≠ "" →
          TakesUp (dictGet msg "type" .none) sender (GyzaProtocol.payloadOf msg) →
            KeyProven cluster.completed sender
  | _ => True

/-- What is proven of everything that a frame is turned into on the way to trust. -/
structure Sound (cluster : GyzaCluster) : Prop where
  remotes : ∀ protocol ∈ cluster.protocols, ∀ remote ∈ protocol.remotePubkey,
    remote ∈ cluster.completed
  scheduled : ∀ message ∈ cluster.scheduled, ∀ sender, message.sender = .str sender →
    TakesUp message.msgType sender message.payload → KeyProven cluster.completed sender
  pending : ∀ member ∈ cluster.pendingMembers, ∀ pubkey, member.pubkey = .str pubkey →
    KeyProven cluster.completed pubkey
  trusted : cluster.OnlyProvenTrusted

theorem KeyProven.mono {completed later : List String} (grows : completed ⊆ later) {pubkey : String}
    (proven : KeyProven completed pubkey) : KeyProven later pubkey := by
  intro key decoded length
  obtain ⟨remote, member, same⟩ := proven key decoded length
  exact ⟨remote, grows member, same⟩

theorem keyProven_of_mem {completed : List String} {pubkey : String} (member : pubkey ∈ completed) :
    KeyProven completed pubkey :=
  fun _ decoded _ => ⟨pubkey, member, decoded⟩

theorem sound_start (trust : TrustRegistry) : Sound (start trust) where
  remotes _ member := absurd member List.not_mem_nil
  scheduled _ member := absurd member List.not_mem_nil
  pending _ member := absurd member List.not_mem_nil
  trusted _ member := absurd member List.not_mem_nil

/-- Trust is added for keys of 32 bytes only. -/
theorem Sound.addTrusted {cluster : GyzaCluster} (sound : Sound cluster) {pubkey : String}
    (proven : KeyProven cluster.completed pubkey) (peerIp gyzaVersion : String) (nowNs : Int) :
    Sound (cluster.addTrusted pubkey peerIp gyzaVersion nowNs) ∧
      (cluster.addTrusted pubkey peerIp gyzaVersion nowNs).completed = cluster.completed := by
  unfold GyzaCluster.addTrusted TrustRegistry.addTrustedCompositor
  cases decoded : Hex.fromhex pubkey with
  | none => exact ⟨sound, rfl⟩
  | some key =>
      by_cases length : key.length = 32
      · simp only [length, ne_eq, not_true, if_false]
        refine ⟨⟨sound.remotes, sound.scheduled, sound.pending, ?_⟩, trivial⟩
        intro text member
        rcases List.mem_append.mp member with before | added
        · exact sound.trusted text before
        · rw [List.mem_singleton.mp added, decoded]
          exact proven key decoded length
      · simp only [length, ne_eq, not_false_eq_true, if_true]
        exact ⟨sound, trivial⟩

theorem Sound.trustMembers {members : List PendingMember} {cluster : GyzaCluster}
    (sound : Sound cluster) (proven : ∀ member ∈ members, ∀ pubkey, member.pubkey = .str pubkey →
      KeyProven cluster.completed pubkey) (nowNs : Int) :
    Sound (cluster.trustMembers nowNs members) := by
  induction members generalizing cluster with
  | nil => exact sound
  | cons member rest ih =>
      unfold GyzaCluster.trustMembers
      split
      next pubkey named =>
        obtain ⟨added, same⟩ := sound.addTrusted (proven member List.mem_cons_self pubkey named)
          (String.ofList (member.raftAddr.toList.takeWhile (· ≠ ':'))) "0.2.0" nowNs
        apply ih added
        intro other later
        rw [same]
        exact proven other (List.mem_cons_of_mem _ later)
      next => exact sound

theorem Sound.addPending {cluster : GyzaCluster} (sound : Sound cluster) (raftAddr : String)
    {sender : Value} (proven : ∀ pubkey, sender = .str pubkey →
      KeyProven cluster.completed pubkey) : Sound (cluster.addPending raftAddr sender) where
  remotes := sound.remotes
  scheduled := sound.scheduled
  pending := by
    intro member pending pubkey named
    rcases List.mem_append.mp pending with before | added
    · exact sound.pending member before pubkey named
    · rw [List.mem_singleton.mp added] at named
      exact proven pubkey named
  trusted := sound.trusted

theorem Sound.dispatchAppMessage {cluster : GyzaCluster} (sound : Sound cluster)
    (strOf : Value → String) {message : AppMessage}
    (proven : ∀ sender, message.sender = .str sender →
      TakesUp message.msgType sender message.payload → KeyProven cluster.completed sender)
    (nowNs : Int) : Sound (cluster.dispatchAppMessage strOf message nowNs) := by
  unfold GyzaCluster.dispatchAppMessage
  split
  next request =>
    unfold handleJoinRequest
    split
    next raftAddr given =>
      split_ifs
      · exact sound
      · exact sound.addPending raftAddr
          (fun sender named => proven sender named (Or.inl ⟨request, raftAddr, given⟩))
    next => exact sound
  next response =>
    unfold handleJoinResponse
    split_ifs with refused
    · exact sound
    · split
      next raftAddr given =>
        exact sound.addPending raftAddr (fun sender named => proven sender named
          (Or.inr (Or.inl ⟨response, by simpa using refused, raftAddr, given⟩)))
      next => exact sound
  next exchange =>
    unfold handleCompositorPubkeyExchange
    split
    next pubkey named =>
      split_ifs with disagreement
      · exact sound
      · exact (sound.addTrusted (proven pubkey named
          (Or.inr (Or.inr ⟨exchange, by simpa using disagreement⟩))) _ _ _).1
    next => exact sound
  next => exact sound

section Runs

variable {crypto : Crypto} {identity : LocalCompositor crypto}

/-- A connection changes its remote key only when it is authenticated. -/
theorem remote_after {protocol : GyzaProtocol} {msg : Fields} {remote : String}
    (after : remote ∈ (protocol.dispatch identity msg).1.remotePubkey) :
    remote ∈ protocol.remotePubkey ∨
      remote ∈ authenticatedBy (protocol.dispatch identity msg).2 := by
  have handled := protocol.dispatch_handled identity msg
  generalize protocol.dispatch identity msg = result at handled after ⊢
  obtain ⟨next, actions⟩ := result
  dsimp only at handled after ⊢
  cases handled with
  | refused => exact Or.inl after
  | proved pubkeyHex =>
      cases after
      exact Or.inr (by simp [authenticatedBy])
  | challenged => exact Or.inl after
  | acknowledged pending =>
      cases after
      exact Or.inr (by simp [authenticatedBy])
  | app => exact Or.inl after

theorem scheduled_after {protocol : GyzaProtocol} {msg : Fields} {message : AppMessage}
    (scheduled : message ∈ scheduledBy (protocol.dispatch identity msg).2) :
    protocol.authenticated = true ∧
      message = ⟨dictGet msg "type" .none, protocol.senderOf msg, GyzaProtocol.payloadOf msg⟩ := by
  have handled := protocol.dispatch_handled identity msg
  generalize protocol.dispatch identity msg = result at handled scheduled
  obtain ⟨next, actions⟩ := result
  dsimp only at handled scheduled
  cases handled with
  | app authenticated => exact ⟨authenticated, by simpa [scheduledBy] using scheduled⟩
  | _ => simp [scheduledBy] at scheduled

/-- Without a sender of its own, a message is from the connection's key. -/
theorem sender_named_or {protocol : GyzaProtocol} {msg : Fields} {sender : String}
    (from_ : protocol.senderOf msg = .str sender) :
    (dictGet msg "sender" .none = .str sender ∧ sender ≠ "") ∨ sender ∈ protocol.remotePubkey := by
  unfold GyzaProtocol.senderOf at from_
  split_ifs at from_ with given
  · refine Or.inl ⟨from_, ?_⟩
    rintro rfl
    rw [from_] at given
    simp [Value.truthy] at given
  · right
    cases remote : protocol.remotePubkey with
    | none => simp [remote] at from_
    | some key => simpa [remote] using from_

theorem Sound.receive {cluster : GyzaCluster} (sound : Sound cluster) {connection : Nat} {msg : Fields}
    (names : NamesProven cluster (.frame connection msg)) :
    Sound (cluster.receive identity connection msg) := by
  unfold GyzaCluster.receive
  cases found : cluster.protocols[connection]? with
  | none => exact sound
  | some protocol =>
      have present : protocol ∈ cluster.protocols := List.mem_of_getElem? found
      have grows : cluster.completed ⊆
          cluster.completed ++ authenticatedBy (protocol.dispatch identity msg).2 :=
        List.subset_append_left _ _
      constructor
      · intro other member remote held
        rcases List.mem_or_eq_of_mem_set member with old | rfl
        · exact grows (sound.remotes other old remote held)
        · rcases remote_after held with before | now
          · exact grows (sound.remotes protocol present remote before)
          · exact List.mem_append_right _ now
      · intro message member sender from_ taken
        apply KeyProven.mono grows
        rcases List.mem_append.mp member with before | added
        · exact sound.scheduled message before sender from_ taken
        · obtain ⟨authenticated, rfl⟩ := scheduled_after added
          rcases sender_named_or from_ with ⟨given, nonempty⟩ | default
          · exact names protocol found authenticated sender given nonempty taken
          · exact keyProven_of_mem (sound.remotes protocol present sender default)
      · intro member pending pubkey named
        exact (sound.pending member pending pubkey named).mono grows
      · intro pubkey member
        obtain ⟨remote, proven, same⟩ := sound.trusted pubkey member
        exact ⟨remote, grows proven, same⟩

theorem Sound.step {cluster : GyzaCluster} (sound : Sound cluster) (strOf : Value → String)
    (raftForms : List String → Bool) {event : Event} (names : NamesProven cluster event) :
    Sound (cluster.step identity strOf raftForms event) := by
  cases event with
  | connect isInitiator ourNonce length =>
      refine ⟨?_, sound.scheduled, sound.pending, sound.trusted⟩
      intro protocol member remote held
      rcases List.mem_append.mp member with before | added
      · exact sound.remotes protocol before remote held
      · rw [List.mem_singleton.mp added] at held
        cases held
  | frame connection msg => exact sound.receive names
  | handle nowNs =>
      unfold GyzaCluster.step
      dsimp only
      cases scheduled : cluster.scheduled with
      | nil => exact sound
      | cons message rest =>
          have queue := sound.scheduled
          rw [scheduled] at queue
          have popped : Sound { cluster with scheduled := rest } :=
            ⟨sound.remotes, fun other member => queue other (List.mem_cons_of_mem _ member),
              sound.pending, sound.trusted⟩
          exact popped.dispatchAppMessage strOf (queue message List.mem_cons_self) nowNs
  | form nowNs =>
      unfold GyzaCluster.step formCluster
      dsimp only
      split_ifs
      · exact sound
      · exact sound
      · exact sound.trustMembers sound.pending nowNs

end Runs

/-! The texts in `trusted` are all that a node adds to its registry. -/

/-- Whatever the registry holds was there before or is in `trusted`. -/
def Recorded (before : TrustRegistry) (cluster : GyzaCluster) : Prop :=
  ∀ row ∈ cluster.trust.rows, row.pubkey ∈ cluster.trusted ∨ row ∈ before.rows

theorem Recorded.addTrusted {before : TrustRegistry} {cluster : GyzaCluster}
    (recorded : Recorded before cluster) (pubkey peerIp gyzaVersion : String) (nowNs : Int) :
    Recorded before (cluster.addTrusted pubkey peerIp gyzaVersion nowNs) := by
  unfold GyzaCluster.addTrusted
  split
  next after added =>
    intro row member
    rcases TrustRegistry.addTrustedCompositor_row added member with own | old
    · exact Or.inl (List.mem_append_right _ (by simp [own]))
    · rcases recorded row old with earlier | initial
      · exact Or.inl (List.mem_append_left _ earlier)
      · exact Or.inr initial
  next => exact recorded

theorem Recorded.trustMembers {before : TrustRegistry} {members : List PendingMember}
    {cluster : GyzaCluster} (recorded : Recorded before cluster) (nowNs : Int) :
    Recorded before (cluster.trustMembers nowNs members) := by
  induction members generalizing cluster with
  | nil => exact recorded
  | cons member rest ih =>
      unfold GyzaCluster.trustMembers
      split
      next => exact ih (recorded.addTrusted _ _ _ nowNs)
      next => exact recorded

theorem Recorded.step {crypto : Crypto} {identity : LocalCompositor crypto} {before : TrustRegistry}
    {cluster : GyzaCluster} (recorded : Recorded before cluster) (strOf : Value → String)
    (raftForms : List String → Bool) (event : Event) :
    Recorded before (cluster.step identity strOf raftForms event) := by
  cases event with
  | connect => exact recorded
  | frame connection msg =>
      unfold GyzaCluster.step receive
      dsimp only
      split <;> exact recorded
  | form nowNs =>
      unfold GyzaCluster.step formCluster
      dsimp only
      split_ifs
      · exact recorded
      · exact recorded
      · exact recorded.trustMembers nowNs
  | handle nowNs =>
      unfold GyzaCluster.step
      dsimp only
      split
      next => exact recorded
      next message rest _ =>
        have popped : Recorded before { cluster with scheduled := rest } := recorded
        unfold GyzaCluster.dispatchAppMessage handleJoinRequest handleJoinResponse
          handleCompositorPubkeyExchange
        split
        · split
          · split_ifs <;> exact recorded
          · exact recorded
        · split_ifs
          · exact recorded
          · split <;> exact recorded
        · split
          · split_ifs
            · exact recorded
            · exact popped.addTrusted _ _ _ nowNs
          · exact recorded
        · exact recorded

theorem trust_recorded {crypto : Crypto} (identity : LocalCompositor crypto)
    (strOf : Value → String) (raftForms : List String → Bool) (trust : TrustRegistry)
    (events : List Event) :
    Recorded trust (Run.run (step identity strOf raftForms) (start trust) events) :=
  Run.kept_run (step identity strOf raftForms) (Recorded trust)
    (fun _ event recorded => recorded.step strOf raftForms event) (start trust) events
    (fun _ member => Or.inr member)

/-- In a run whose frames name proven senders, only proven keys are ever trusted. -/
theorem only_proven_trusted {crypto : Crypto} (identity : LocalCompositor crypto)
    (strOf : Value → String) (raftForms : List String → Bool) (trust : TrustRegistry)
    (events : List Event)
    (names : Run.Admissible (step identity strOf raftForms) NamesProven (start trust) events)
    (front back : List Event) (split : events = front ++ back) :
    (Run.run (step identity strOf raftForms) (start trust) front).OnlyProvenTrusted := by
  rw [split, Run.admissible_append] at names
  exact (Run.invariant_run (step identity strOf raftForms) NamesProven Sound
    (fun _ _ sound names => sound.step strOf raftForms names) (start trust) front
    (sound_start trust) names.1).trusted

end GyzaCluster

namespace Sample

open GyzaCluster

def ourNonce : Bytes := List.replicate 32 7

def plainText (value : Value) : String :=
  match value with
  | .str text => text
  | _ => ""

/-- A peer proves the key of seed 2, and sends one more frame. -/
def exchanging (msg : Fields) : List Event :=
  [.connect false ourNonce (by decide),
    .frame 0 [("type", .str "hello"), ("pubkey", .str (compositor 2).pubkeyHex),
      ("nonce", .str (Hex.encode ourNonce))],
    .frame 0 [("type", .str "hello_ack"), ("response", .str ((compositor 2).sign ourNonce))],
    .frame 0 msg, .handle 1]

def exchange : Fields := [("type", .str "compositor_pubkey_exchange")]

def exchangeAs (seed : UInt8) : Fields :=
  [("type", .str "compositor_pubkey_exchange"), ("sender", .str (compositor seed).pubkeyHex)]

end Sample

namespace GyzaCluster

theorem only_proven_trusted_sample :
    (Run.run (step (Sample.compositor 1) Sample.plainText (fun _ => true)) (start Table.empty)
      (Sample.exchanging Sample.exchange)).OnlyProvenTrusted ∧
      (Run.run (step (Sample.compositor 1) Sample.plainText (fun _ => true)) (start Table.empty)
        (Sample.exchanging Sample.exchange)).trusted = [(Sample.compositor 2).pubkeyHex] := by
  refine ⟨?_, by decide +kernel⟩
  refine only_proven_trusted (Sample.compositor 1) Sample.plainText (fun _ => true) Table.empty
    (Sample.exchanging Sample.exchange) ?_ _ [] (List.append_nil _).symm
  -- no frame names a sender
  refine ⟨trivial, ?_, ?_, ?_, trivial, trivial⟩
  all_goals
    intro _ _ _ sender given
    cases given

/-- A peer that proved its own key names another as the sender. -/
theorem unproven_key_trusted :
    ¬(Run.run (step (Sample.compositor 1) Sample.plainText (fun _ => true)) (start Table.empty)
      (Sample.exchanging (Sample.exchangeAs 3))).OnlyProvenTrusted := by
  generalize ended : Run.run (step (Sample.compositor 1) Sample.plainText (fun _ => true))
    (start Table.empty) (Sample.exchanging (Sample.exchangeAs 3)) = cluster
  have lists : (cluster.trusted, cluster.completed) =
      ([(Sample.compositor 3).pubkeyHex], [(Sample.compositor 2).pubkeyHex]) := by
    subst ended
    decide +kernel
  obtain ⟨trusted, completed⟩ := Prod.mk.inj lists
  intro proven
  obtain ⟨remote, member, same⟩ := proven (Sample.compositor 3).pubkeyHex (by simp [trusted])
  rw [completed, List.mem_singleton] at member
  have keys : Hex.fromhex (Sample.compositor 2).pubkeyHex =
      Hex.fromhex (Sample.compositor 3).pubkeyHex := member ▸ same
  simp only [LocalCompositor.pubkeyHex, Hex.fromhex_encode] at keys
  exact absurd keys (by decide)

end GyzaCluster

end Gyza

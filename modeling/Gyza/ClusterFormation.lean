import Gyza.Cluster
import Gyza.Lib.Run

/-! Nodes that form a cluster with each other (`_form_cluster` and the join handlers of
`gyza/network/cluster.py`).

A message that was sent can arrive at any later time, any number of times or never. -/

namespace Gyza.ClusterFormation

open PyValue (Fields Value dictGet)

variable {ν : Type}

/-- The identity of each node, and the address `f"{_local_ip()}:{raft_port}"` it names. -/
structure Members (ν : Type) where
  pubkey : ν → String
  raftAddr : ν → String

inductive Kind where
  | joinRequest
  | joinResponse

structure JoinMessage (ν : Type) where
  kind : Kind
  sender : ν
  receiver : ν
  payload : Fields

structure Lan (ν : Type) where
  clusters : ν → GyzaCluster
  sent : List (JoinMessage ν)
  /-- The `partner_addrs` that nodes handed to their `GyzaRaftNode`. -/
  handed : List (ν × List String)

inductive Event (ν : Type) where
  /-- `_form_cluster` up to its wait. -/
  | form (node : ν) (peers : List ν)
  /-- The message that was sent as the so many-th arrives. -/
  | deliver (index : Nat)
  /-- `_form_cluster` after its wait. -/
  | conclude (node : ν) (nowNs : Int)

def partnerAddrs (cluster : GyzaCluster) : List String :=
  cluster.pendingMembers.map PendingMember.raftAddr

def namedAddr (payload : Fields) : List String :=
  match dictGet payload "raft_addr" .none with
  | .str raftAddr => [raftAddr]
  | _ => []

section Steps

variable (members : Members ν) (raftForms : List String → Bool)

def joinRequest (node peer : ν) : JoinMessage ν :=
  ⟨.joinRequest, node, peer,
    [("raft_addr", .str (members.raftAddr node)), ("gyza_version", .str "0.2.0")]⟩

def joinResponse (node peer : ν) : JoinMessage ν :=
  ⟨.joinResponse, node, peer,
    [("accept", .bool true), ("raft_addr", .str (members.raftAddr node))]⟩

def receive (cluster : GyzaCluster) (message : JoinMessage ν) : GyzaCluster :=
  match message.kind with
  | .joinRequest =>
      cluster.handleJoinRequest (.str (members.pubkey message.sender)) message.payload
  | .joinResponse =>
      cluster.handleJoinResponse (.str (members.pubkey message.sender)) message.payload

/-- What `_handle_join_request` sends; a payload without an address is dropped. -/
def answers (message : JoinMessage ν) : List (JoinMessage ν) :=
  match message.kind with
  | .joinRequest =>
      (namedAddr message.payload).map fun _ =>
        joinResponse members message.receiver message.sender
  | .joinResponse => []

variable [DecidableEq ν]

def step (lan : Lan ν) : Event ν → Lan ν
  | .form node peers => { lan with sent := lan.sent ++ peers.map (joinRequest members node) }
  | .deliver index =>
      match lan.sent[index]? with
      | none => lan
      | some message =>
          { lan with
            clusters := Function.update lan.clusters message.receiver
              (receive members (lan.clusters message.receiver) message)
            sent := lan.sent ++ answers members message }
  | .conclude node nowNs =>
      if (lan.clusters node).pendingMembers = [] then lan
      else
        { lan with
          clusters := Function.update lan.clusters node
            ((lan.clusters node).formCluster raftForms nowNs)
          handed := lan.handed ++ [(node, partnerAddrs (lan.clusters node))] }

def initial (trust : ν → TrustRegistry) : Lan ν := ⟨fun node => .start (trust node), [], []⟩

end Steps

/-- The address that a message makes its receiver append. -/
def JoinMessage.brings (message : JoinMessage ν) : List String :=
  match message.kind with
  | .joinRequest => namedAddr message.payload
  | .joinResponse =>
      if (dictGet message.payload "accept" .none).truthy = false then []
      else namedAddr message.payload

section Addresses

variable (members : Members ν) (raftForms : List String → Bool)

theorem partnerAddrs_addPending (cluster : GyzaCluster) (raftAddr : String) (sender : Value) :
    partnerAddrs (cluster.addPending raftAddr sender) = partnerAddrs cluster ++ [raftAddr] := by
  rw [GyzaCluster.addPending, partnerAddrs, List.map_append]
  rfl

theorem namedAddr_str {payload : Fields} {raftAddr : String}
    (named : dictGet payload "raft_addr" .none = .str raftAddr) :
    namedAddr payload = [raftAddr] := by
  rw [namedAddr, named]

theorem namedAddr_nil {payload : Fields}
    (unnamed : ∀ raftAddr, dictGet payload "raft_addr" .none ≠ .str raftAddr) :
    namedAddr payload = [] := by
  rw [namedAddr]
  split
  next raftAddr named => exact absurd named (unnamed raftAddr)
  next => rfl

theorem partnerAddrs_receive (cluster : GyzaCluster) (message : JoinMessage ν) :
    partnerAddrs (receive members cluster message) = partnerAddrs cluster ++ message.brings := by
  rw [receive, JoinMessage.brings]
  cases message.kind with
  | joinRequest =>
      dsimp only
      rw [GyzaCluster.handleJoinRequest]
      split
      next raftAddr named =>
        rw [namedAddr_str named]
        exact partnerAddrs_addPending cluster raftAddr _
      next unnamed => rw [namedAddr_nil unnamed, List.append_nil]
  | joinResponse =>
      dsimp only
      rw [GyzaCluster.handleJoinResponse]
      split_ifs with refused
      · rw [List.append_nil]
      · split
        next raftAddr named =>
          rw [namedAddr_str named]
          exact partnerAddrs_addPending cluster raftAddr _
        next unnamed => rw [namedAddr_nil unnamed, List.append_nil]

theorem trustMembers_pending (nowNs : Int) (cluster : GyzaCluster) (pending : List PendingMember) :
    (cluster.trustMembers nowNs pending).pendingMembers = cluster.pendingMembers := by
  induction pending generalizing cluster with
  | nil => rfl
  | cons member rest ih =>
      rw [GyzaCluster.trustMembers]
      split
      · rw [ih, GyzaCluster.addTrusted]
        split <;> rfl
      · rfl

theorem partnerAddrs_formCluster (cluster : GyzaCluster) (nowNs : Int) :
    partnerAddrs (cluster.formCluster raftForms nowNs) = partnerAddrs cluster := by
  rw [GyzaCluster.formCluster]
  split_ifs
  · rfl
  · rfl
  · rw [partnerAddrs, trustMembers_pending, partnerAddrs]

variable [DecidableEq ν]

/-- What an event adds to the addresses of a node. -/
def gained (lan : Lan ν) (event : Event ν) (node : ν) : List String :=
  match event with
  | .deliver index =>
      (lan.sent[index]?.toList.filter fun message => message.receiver = node).flatMap
        JoinMessage.brings
  | _ => []

theorem partnerAddrs_step (lan : Lan ν) (event : Event ν) (node : ν) :
    partnerAddrs ((step members raftForms lan event).clusters node) =
      partnerAddrs (lan.clusters node) ++ gained lan event node := by
  rw [step.eq_def, gained.eq_def]
  cases event with
  | form other peers => rw [List.append_nil]
  | deliver index =>
      dsimp only
      cases lan.sent[index]? with
      | none => simp
      | some message =>
          by_cases addressed : node = message.receiver
          · subst addressed
            simp [partnerAddrs_receive]
          · simp [Function.update_of_ne addressed, Ne.symm addressed]
  | conclude other nowNs =>
      dsimp only
      split_ifs with empty
      · rw [List.append_nil]
      · rw [List.append_nil]
        dsimp only
        by_cases concludes : node = other
        · subst concludes
          rw [Function.update_self, partnerAddrs_formCluster]
        · rw [Function.update_of_ne concludes]

end Addresses

/-! When the partners of a node are the other nodes, each once. -/

section Partners

variable (members : Members ν) (raftForms : List String → Bool) [DecidableEq ν]

/-- No address twice, and not the address of the node. -/
def Proper (node : ν) (addrs : List String) : Prop :=
  addrs.Nodup ∧ members.raftAddr node ∉ addrs

/-- A message that arrives at the node brings an address which is not its own and which no
message has brought before. -/
def FreshFor (node : ν) (lan : Lan ν) (event : Event ν) : Prop :=
  ∀ index message, event = .deliver index → lan.sent[index]? = some message →
    message.receiver = node → ∀ raftAddr ∈ message.brings,
      raftAddr ≠ members.raftAddr node ∧ raftAddr ∉ partnerAddrs (lan.clusters node)

omit [DecidableEq ν] in
theorem namedAddr_cases (payload : Fields) :
    namedAddr payload = [] ∨ ∃ raftAddr, namedAddr payload = [raftAddr] := by
  rw [namedAddr]
  split
  next raftAddr _ => exact Or.inr ⟨raftAddr, rfl⟩
  next => exact Or.inl rfl

omit [DecidableEq ν] in
theorem brings_cases (message : JoinMessage ν) :
    message.brings = [] ∨ ∃ raftAddr, message.brings = [raftAddr] := by
  rw [JoinMessage.brings]
  cases message.kind with
  | joinRequest => exact namedAddr_cases message.payload
  | joinResponse =>
      dsimp only
      split_ifs
      · exact Or.inl rfl
      · exact namedAddr_cases message.payload

theorem mem_gained (lan : Lan ν) (event : Event ν) (node : ν) (raftAddr : String) :
    raftAddr ∈ gained lan event node ↔ ∃ index message, event = .deliver index ∧
      lan.sent[index]? = some message ∧ message.receiver = node ∧ raftAddr ∈ message.brings := by
  cases event with
  | form other peers => simp [gained]
  | conclude other nowNs => simp [gained]
  | deliver index => simp [gained, and_assoc]

theorem gained_nodup (lan : Lan ν) (event : Event ν) (node : ν) :
    (gained lan event node).Nodup := by
  cases event with
  | form other peers => exact List.nodup_nil
  | conclude other nowNs => exact List.nodup_nil
  | deliver index =>
      rw [gained]
      cases lan.sent[index]? with
      | none => exact List.nodup_nil
      | some message =>
          rw [Option.toList_some, List.filter_singleton]
          cases decide (message.receiver = node) with
          | false => exact List.nodup_nil
          | true =>
              rw [cond_true, List.flatMap_singleton]
              obtain none | ⟨raftAddr, one⟩ := brings_cases message
              · rw [none]
                exact List.nodup_nil
              · rw [one]
                exact List.nodup_singleton raftAddr

theorem proper_step_iff {lan : Lan ν} {node : ν}
    (proper : Proper members node (partnerAddrs (lan.clusters node))) (event : Event ν) :
    Proper members node (partnerAddrs ((step members raftForms lan event).clusters node)) ↔
      FreshFor members node lan event := by
  rw [partnerAddrs_step, Proper, List.nodup_append, List.mem_append]
  constructor
  · rintro ⟨⟨-, -, apart⟩, foreign⟩ index message rfl sent addressed raftAddr brought
    have gain := (mem_gained lan (.deliver index) node raftAddr).mpr
      ⟨index, message, rfl, sent, addressed, brought⟩
    exact ⟨fun own => foreign (Or.inr (own ▸ gain)),
      fun held => apart raftAddr held raftAddr gain rfl⟩
  · intro fresh
    have new : ∀ raftAddr ∈ gained lan event node,
        raftAddr ≠ members.raftAddr node ∧ raftAddr ∉ partnerAddrs (lan.clusters node) := by
      intro raftAddr gain
      obtain ⟨index, message, rfl, sent, addressed, brought⟩ :=
        (mem_gained lan event node raftAddr).mp gain
      exact fresh index message rfl sent addressed raftAddr brought
    refine ⟨⟨proper.1, gained_nodup lan event node, ?_⟩, ?_⟩
    · rintro held before _ gain rfl
      exact (new held gain).2 before
    · rintro (before | gain)
      · exact proper.2 before
      · exact (new _ gain).1 rfl

theorem partnerAddrs_grow (lan : Lan ν) (events : List (Event ν)) (node : ν) :
    partnerAddrs (lan.clusters node) <+:
      partnerAddrs ((Run.run (step members raftForms) lan events).clusters node) := by
  induction events generalizing lan with
  | nil => exact List.prefix_refl _
  | cons event events ih =>
      refine List.IsPrefix.trans ?_ (ih (step members raftForms lan event))
      rw [partnerAddrs_step]
      exact List.prefix_append _ _

/-- What an event makes a node hand over. -/
def handsOver (lan : Lan ν) (event : Event ν) : List (ν × List String) :=
  match event with
  | .conclude node _ =>
      if partnerAddrs (lan.clusters node) = [] then []
      else [(node, partnerAddrs (lan.clusters node))]
  | _ => []

theorem handed_step (lan : Lan ν) (event : Event ν) :
    (step members raftForms lan event).handed = lan.handed ++ handsOver lan event := by
  cases event with
  | form node peers => exact (List.append_nil _).symm
  | deliver index =>
      refine Eq.trans ?_ (List.append_nil _).symm
      rw [step]
      cases lan.sent[index]? <;> rfl
  | conclude node nowNs =>
      have empty : partnerAddrs (lan.clusters node) = [] ↔
          (lan.clusters node).pendingMembers = [] := List.map_eq_nil_iff
      simp only [handsOver, step, empty]
      split_ifs
      · rw [List.append_nil]
      · rfl

omit [DecidableEq ν] in
theorem mem_handsOver {lan : Lan ν} {event : Event ν} {node : ν} {addrs : List String} :
    (node, addrs) ∈ handsOver lan event ↔ addrs ≠ [] ∧ ∃ nowNs, event = .conclude node nowNs ∧
      addrs = partnerAddrs (lan.clusters node) := by
  cases event with
  | form other peers => simp [handsOver]
  | deliver index => simp [handsOver]
  | conclude other nowNs =>
      rw [handsOver]
      split_ifs with empty
      · constructor
        · intro none
          cases none
        · rintro ⟨some, time, same, rfl⟩
          cases same
          exact absurd empty some
      · rw [List.mem_singleton, Prod.mk.injEq]
        constructor
        · rintro ⟨rfl, rfl⟩
          exact ⟨empty, nowNs, rfl, rfl⟩
        · rintro ⟨-, time, same, rfl⟩
          cases same
          exact ⟨rfl, rfl⟩

/-- The addresses of a node are proper when each message brought a fresh one. -/
theorem proper_run_iff (trust : ν → TrustRegistry) (events : List (Event ν)) (node : ν) :
    Proper members node (partnerAddrs
        ((Run.run (step members raftForms) (initial trust) events).clusters node)) ↔
      Run.Admissible (step members raftForms) (FreshFor members node) (initial trust) events := by
  rw [← Run.invariant_iff_admissible (step members raftForms) (FreshFor members node)
    (fun lan => Proper members node (partnerAddrs (lan.clusters node)))
    (fun lan event proper => proper_step_iff members raftForms proper event) (initial trust)
    events ⟨List.nodup_nil, List.not_mem_nil⟩]
  constructor
  · rintro ⟨distinct, foreign⟩ front back rfl
    rw [Run.run_append] at distinct foreign
    have earlier := (partnerAddrs_grow members raftForms
      (Run.run (step members raftForms) (initial trust) front) back node).sublist
    exact ⟨distinct.sublist earlier, fun own => foreign (earlier.subset own)⟩
  · intro along
    exact along events [] (List.append_nil events).symm

/-- A list is handed where a node concludes with the addresses it has then. -/
theorem mem_handed_iff (trust : ν → TrustRegistry) (events : List (Event ν)) (node : ν)
    (addrs : List String) :
    (node, addrs) ∈ (Run.run (step members raftForms) (initial trust) events).handed ↔
      addrs ≠ [] ∧ ∃ front nowNs back, events = front ++ .conclude node nowNs :: back ∧
        addrs = partnerAddrs
          ((Run.run (step members raftForms) (initial trust) front).clusters node) := by
  induction events using List.reverseRecOn with
  | nil => simp [initial]
  | append_singleton events event ih =>
      rw [Run.run_append, Run.run_cons, Run.run_nil, handed_step, List.mem_append, ih,
        mem_handsOver]
      constructor
      · rintro (⟨some, front, nowNs, back, rfl, same⟩ | given)
        · exact ⟨some, front, nowNs, back ++ [event], by simp, same⟩
        · obtain ⟨some, nowNs, rfl, same⟩ := given
          exact ⟨some, events, nowNs, [], rfl, same⟩
      · rintro ⟨some, front, nowNs, back, split, same⟩
        rcases back.eq_nil_or_concat with rfl | ⟨back, last, rfl⟩
        · obtain ⟨rfl, concludes⟩ := List.append_inj' split rfl
          exact Or.inr ⟨some, nowNs, (List.cons.inj concludes).1, same⟩
        · rw [List.concat_eq_append, ← List.cons_append, ← List.append_assoc] at split
          obtain ⟨rfl, -⟩ := List.append_inj' split rfl
          exact Or.inl ⟨some, front, nowNs, back, rfl, same⟩

/-- What the nodes hand over is proper exactly when each message that reached one of them
before it did so brought a fresh address. -/
theorem handed_proper_iff (trust : ν → TrustRegistry) (events : List (Event ν)) :
    (∀ node addrs,
      (node, addrs) ∈ (Run.run (step members raftForms) (initial trust) events).handed →
        addrs.Nodup ∧ members.raftAddr node ∉ addrs) ↔
      ∀ front node nowNs back, events = front ++ .conclude node nowNs :: back →
        Run.Admissible (step members raftForms) (FreshFor members node) (initial trust) front := by
  constructor
  · intro proper front node nowNs back split
    rw [← proper_run_iff]
    by_cases empty : partnerAddrs
        ((Run.run (step members raftForms) (initial trust) front).clusters node) = []
    · rw [empty]
      exact ⟨List.nodup_nil, List.not_mem_nil⟩
    · exact proper node _ ((mem_handed_iff members raftForms trust events node _).mpr
        ⟨empty, front, nowNs, back, split, rfl⟩)
  · intro fresh node addrs handed
    obtain ⟨-, front, nowNs, back, split, rfl⟩ :=
      (mem_handed_iff members raftForms trust events node addrs).mp handed
    exact (proper_run_iff members raftForms trust front node).mpr
      (fresh front node nowNs back split)

end Partners

/-! Two nodes that form a cluster with each other. -/

section Pair

def pair : Members Bool where
  pubkey node := String.ofList (List.replicate 64 (if node then 'a' else 'b'))
  raftAddr node := if node then "10.0.0.1:8749" else "10.0.0.2:8749"

/-- Both send a request, and every message arrives once. -/
def bothForm : List (Event Bool) :=
  [.form true [false], .form false [true], .deliver 0, .deliver 1, .deliver 2, .deliver 3,
    .conclude true 0, .conclude false 0]

/-- Each counts the other twice. -/
theorem bothForm_handed_twice :
    (true, ["10.0.0.2:8749", "10.0.0.2:8749"]) ∈
        (Run.run (step pair fun _ => true) (initial fun _ => Table.empty) bothForm).handed ∧
      (false, ["10.0.0.1:8749", "10.0.0.1:8749"]) ∈
        (Run.run (step pair fun _ => true) (initial fun _ => Table.empty) bothForm).handed ∧
      ¬ ["10.0.0.2:8749", "10.0.0.2:8749"].Nodup := by
  have handed : (Run.run (step pair fun _ => true) (initial fun _ => Table.empty) bothForm).handed =
      [(true, ["10.0.0.2:8749", "10.0.0.2:8749"]),
        (false, ["10.0.0.1:8749", "10.0.0.1:8749"])] := by
    decide +kernel
  rw [handed]
  decide

end Pair

end Gyza.ClusterFormation

import Gyza.Transport
import Gyza.TrustRegistry

/-! Cluster formation (`gyza/network/cluster.py`): how the senders of application
messages become trusted compositors. -/

namespace Gyza

open Hex (Bytes)
open PyValue (Fields Value dictGet)

/-- A message that `_dispatch` has scheduled. -/
structure AppMessage where
  msgType : Value
  sender : Value
  payload : Fields

/-- An entry of `_pending_members`. -/
structure PendingMember where
  raftAddr : String
  pubkey : Value

/-- A node, with the keys that completed the challenge-response with it and the
texts that it has trusted through formation or exchange. -/
structure GyzaCluster where
  protocols : List GyzaProtocol
  scheduled : List AppMessage
  pendingMembers : List PendingMember
  trust : TrustRegistry
  completed : List String
  trusted : List String

namespace GyzaCluster

/-- Of the values that JSON has, lists and dictionaries are no keys of a dictionary. -/
def isHashable : Value → Bool
  | .dict _ => false
  | .collection _ _ => false
  | _ => true

def start (trust : TrustRegistry) : GyzaCluster := ⟨[], [], [], trust, [], []⟩

def addPending (cluster : GyzaCluster) (raftAddr : String) (sender : Value) : GyzaCluster :=
  { cluster with pendingMembers := cluster.pendingMembers ++ [⟨raftAddr, sender⟩] }

/-- `add_trusted_compositor`, where a `ValueError` is logged. -/
def addTrusted (cluster : GyzaCluster) (pubkey peerIp gyzaVersion : String) (nowNs : Int) :
    GyzaCluster :=
  match TrustRegistry.addTrustedCompositor cluster.trust pubkey peerIp gyzaVersion "" nowNs with
  | .ok trust => { cluster with trust, trusted := cluster.trusted ++ [pubkey] }
  | .error _ => cluster

/-! The handlers. One that raises is logged by the transport. -/

def handleJoinRequest (cluster : GyzaCluster) (sender : Value) (payload : Fields) : GyzaCluster :=
  match dictGet payload "raft_addr" .none with
  | .str raftAddr =>
      -- the answer looks the sender up in a dictionary first
      if isHashable sender = false then cluster else cluster.addPending raftAddr sender
  | _ => cluster

def handleJoinResponse (cluster : GyzaCluster) (sender : Value) (payload : Fields) : GyzaCluster :=
  if (dictGet payload "accept" .none).truthy = false then cluster
  else
    match dictGet payload "raft_addr" .none with
    | .str raftAddr => cluster.addPending raftAddr sender
    | _ => cluster

/-- `claimed and claimed != sender_pubkey`, for a sender that is a text. -/
def disagrees (claimed : Value) (sender : String) : Bool :=
  match claimed with
  | .str text => text ≠ "" && text ≠ sender
  | other => other.truthy

def handleCompositorPubkeyExchange (strOf : Value → String) (cluster : GyzaCluster) (sender : Value)
    (payload : Fields) (nowNs : Int) : GyzaCluster :=
  match sender with
  | .str pubkey =>
      if disagrees (dictGet payload "pubkey" .none) pubkey then cluster
      else cluster.addTrusted pubkey "" (strOf (dictGet payload "gyza_version" (.str ""))) nowNs
  -- `bytes.fromhex` of another value raises `TypeError`
  | _ => cluster

def dispatchAppMessage (strOf : Value → String) (cluster : GyzaCluster) (message : AppMessage)
    (nowNs : Int) : GyzaCluster :=
  match message.msgType with
  | .str "cluster_join_request" => cluster.handleJoinRequest message.sender message.payload
  | .str "cluster_join_response" => cluster.handleJoinResponse message.sender message.payload
  | .str "compositor_pubkey_exchange" =>
      cluster.handleCompositorPubkeyExchange strOf message.sender message.payload nowNs
  | _ => cluster

/-- The loop over the members; it ends with the `TypeError` of a key that is no text. -/
def trustMembers (nowNs : Int) : GyzaCluster → List PendingMember → GyzaCluster
  | cluster, [] => cluster
  | cluster, member :: rest =>
      match member.pubkey with
      | .str pubkey =>
          let peerIp := String.ofList (member.raftAddr.toList.takeWhile (· ≠ ':'))
          trustMembers nowNs (cluster.addTrusted pubkey peerIp "0.2.0" nowNs) rest
      | _ => cluster

/-- `_form_cluster` after its wait; the Raft node may refuse its partners. -/
def formCluster (raftForms : List String → Bool) (cluster : GyzaCluster) (nowNs : Int) :
    GyzaCluster :=
  if cluster.pendingMembers = [] then cluster
  else if raftForms (cluster.pendingMembers.map PendingMember.raftAddr) = false then cluster
  else cluster.trustMembers nowNs cluster.pendingMembers

inductive Event where
  | connect (isInitiator : Bool) (ourNonce : Bytes) (ourNonce_length : ourNonce.length = 32)
  | frame (connection : Nat) (msg : Fields)
  /-- The event loop runs the oldest scheduled message. -/
  | handle (nowNs : Int)
  | form (nowNs : Int)

def scheduledBy (actions : List GyzaProtocol.Action) : List AppMessage :=
  actions.filterMap fun action =>
    match action with
    | .dispatchApp msgType sender payload => some ⟨msgType, sender, payload⟩
    | _ => none

def authenticatedBy (actions : List GyzaProtocol.Action) : List String :=
  actions.filterMap fun action =>
    match action with
    | .peerAuthenticated pubkey => some pubkey
    | _ => none

section Runs

variable {crypto : Crypto} (identity : LocalCompositor crypto) (strOf : Value → String)
  (raftForms : List String → Bool)

def receive (cluster : GyzaCluster) (connection : Nat) (msg : Fields) : GyzaCluster :=
  match cluster.protocols[connection]? with
  | none => cluster
  | some protocol =>
      let (after, actions) := protocol.dispatch identity msg
      { cluster with
        protocols := cluster.protocols.set connection after
        scheduled := cluster.scheduled ++ scheduledBy actions
        completed := cluster.completed ++ authenticatedBy actions }

def step (cluster : GyzaCluster) : Event → GyzaCluster
  | .connect isInitiator ourNonce ourNonce_length =>
      { cluster with
        protocols := cluster.protocols ++ [{ isInitiator, ourNonce, ourNonce_length }] }
  | .frame connection msg => cluster.receive identity connection msg
  | .handle nowNs =>
      match cluster.scheduled with
      | [] => cluster
      | message :: rest =>
          { cluster with scheduled := rest }.dispatchAppMessage strOf message nowNs
  | .form nowNs => cluster.formCluster raftForms nowNs

end Runs

end GyzaCluster

end Gyza

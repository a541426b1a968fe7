import Gyza.Transport

/-! Many connections at once: honest nodes that run the transport, and an attacker
who holds every other key.

TLS authenticates nobody, so an attacker on the path ends every connection itself that
it wants to read or to write; it only delays the frames of the others. -/

namespace Gyza.Sessions

open Hex (Bytes)
open PyValue (Fields Value dictGet)
open GyzaProtocol

/-- `secrets.token_bytes(32)`. -/
abbrev Nonce := { bytes : Bytes // bytes.length = 32 }

/-- A node's end of a connection, with the frames on their way to it. -/
structure Endpoint (Node : Type) where
  node : Node
  protocol : GyzaProtocol
  inbox : List Fields := []

inductive Link (Node : Type) where
  | direct (initiator responder : Endpoint Node)
  /-- The other end is the attacker's. -/
  | tapped (endpoint : Endpoint Node)

/-- A `send_app` that sent its frame, with the key the connection had authenticated. -/
structure Call (Node : Type) where
  node : Node
  remotePubkey : Option String
  msgType : String
  payload : Fields

structure Dispatched (Node : Type) where
  node : Node
  msgType : Value
  sender : Value
  payload : Fields

structure Net (Node : Type) where
  links : List (Link Node) := []
  /-- What each node has signed. -/
  signed : List (Node × Bytes) := []
  calls : List (Call Node) := []
  dispatched : List (Dispatched Node) := []

inductive Event (Node : Type) where
  | join (initiator responder : Node) (nonce nonce' : Nonce)
  | tap (node : Node) (isInitiator : Bool) (nonce : Nonce)
  /-- The next frame of a direct link arrives. -/
  | deliver (link : Nat) (toInitiator : Bool)
  /-- The attacker sends a frame on its own connection. -/
  | inject (link : Nat) (msg : Fields)
  | sendApp (link : Nat) (byInitiator : Bool) (msgType : String) (timestampNs : Int)
      (payload : Fields)

section Steps

variable {Node : Type} {crypto : Crypto} (identity : Node → LocalCompositor crypto)

def newEndpoint (node : Node) (isInitiator : Bool) (nonce : Nonce) : Endpoint Node where
  node := node
  protocol := { isInitiator, ourNonce := nonce.1, ourNonce_length := nonce.2 }

def framesOf (actions : List Action) : List Fields :=
  actions.filterMap fun action =>
    match action with
    | .sendFrame msg => some msg
    | _ => none

def dispatchedBy (node : Node) (actions : List Action) : List (Dispatched Node) :=
  actions.filterMap fun action =>
    match action with
    | .dispatchApp msgType sender payload => some ⟨node, msgType, sender, payload⟩
    | _ => none

/-- A frame is answered only by signing the nonce in it. -/
def signedBy (node : Node) (msg : Fields) (actions : List Action) : List (Node × Bytes) :=
  (framesOf actions).filterMap fun _ =>
    match dictGet msg "nonce" .none with
    | .str nonceHex => (Hex.fromhex nonceHex).map (fun nonce => (node, nonce))
    | _ => none

def Endpoint.post (endpoint : Endpoint Node) (actions : List Action) : Endpoint Node :=
  { endpoint with inbox := endpoint.inbox ++ framesOf actions }

/-- What an endpoint does with a frame, and the net's logs of it. -/
def Net.receive (net : Net Node) (endpoint : Endpoint Node) (msg : Fields) :
    Endpoint Node × List Action × Net Node :=
  let (protocol, actions) := dispatch (identity endpoint.node) endpoint.protocol msg
  ({ endpoint with protocol }, actions, { net with
    signed := net.signed ++ signedBy endpoint.node msg actions
    dispatched := net.dispatched ++ dispatchedBy endpoint.node actions })

/-- The frame at the head of the receiver's inbox; the answers go to the sender's. -/
def Net.deliver (net : Net Node) (sender receiver : Endpoint Node)
    (link : Endpoint Node → Endpoint Node → Link Node) (k : Nat) : Net Node :=
  match receiver.inbox with
  | [] => net
  | msg :: rest =>
      let (receiver, actions, net) := net.receive identity { receiver with inbox := rest } msg
      { net with links := net.links.set k (link (sender.post actions) receiver) }

def callsBy (endpoint : Endpoint Node) (msgType : String) (payload : Fields) (actions : List Action) :
    List (Call Node) :=
  (framesOf actions).map fun _ => ⟨endpoint.node, endpoint.protocol.remotePubkey, msgType, payload⟩

def sends (fits : Fields → Bool) (endpoint : Endpoint Node) (msgType : String) (timestampNs : Int)
    (payload : Fields) : List Action :=
  sendApp (identity endpoint.node) fits endpoint.protocol msgType timestampNs payload

def Net.send (net : Net Node) (fits : Fields → Bool) (sender receiver : Endpoint Node)
    (link : Endpoint Node → Endpoint Node → Link Node) (k : Nat) (msgType : String)
    (timestampNs : Int) (payload : Fields) : Net Node :=
  let actions := sends identity fits sender msgType timestampNs payload
  { net with
    links := net.links.set k (link sender (receiver.post actions))
    calls := net.calls ++ callsBy sender msgType payload actions }

def step (fits : Fields → Bool) (net : Net Node) : Event Node → Net Node
  | .join initiator responder nonce nonce' =>
      let initiator := newEndpoint initiator true nonce
      let responder := newEndpoint responder false nonce'
      let actions := openingFrames (identity initiator.node) initiator.protocol
      { net with links := net.links ++ [.direct initiator (responder.post actions)] }
  | .tap node isInitiator nonce =>
      { net with links := net.links ++ [.tapped (newEndpoint node isInitiator nonce)] }
  | .deliver k toInitiator =>
      match net.links[k]? with
      | some (.direct initiator responder) =>
          if toInitiator then
            net.deliver identity responder initiator (fun sender receiver => .direct receiver sender) k
          else net.deliver identity initiator responder .direct k
      | _ => net
  | .inject k msg =>
      match net.links[k]? with
      | some (.tapped endpoint) =>
          let (endpoint, _, net) := net.receive identity endpoint msg
          { net with links := net.links.set k (.tapped endpoint) }
      | _ => net
  | .sendApp k byInitiator msgType timestampNs payload =>
      match net.links[k]? with
      | some (.direct initiator responder) =>
          if byInitiator then
            net.send identity fits initiator responder .direct k msgType timestampNs payload
          else
            net.send identity fits responder initiator (fun sender receiver => .direct receiver sender) k
              msgType timestampNs payload
      | some (.tapped endpoint) =>
          let actions := sends identity fits endpoint msgType timestampNs payload
          { net with calls := net.calls ++ callsBy endpoint msgType payload actions }
      | none => net

/-! What the attacker and the random source cannot do. -/

def Link.endpoints : Link Node → List (Endpoint Node)
  | .direct initiator responder => [initiator, responder]
  | .tapped endpoint => [endpoint]

structure Fresh (net : Net Node) (nonce : Bytes) : Prop where
  unused : ∀ link ∈ net.links, ∀ endpoint ∈ link.endpoints, endpoint.protocol.ourNonce ≠ nonce
  unsigned : ∀ node, (node, nonce) ∉ net.signed

/-- A response that verifies under a node's key is a signature the node has made. -/
def Unforged (net : Net Node) (endpoint : Endpoint Node) (msg : Fields) : Prop :=
  ∀ node responseHex, dictGet msg "response" .none = .str responseHex →
    responseVerifies crypto (identity node).publicBytes responseHex endpoint.protocol.ourNonce =
      true →
    (node, endpoint.protocol.ourNonce) ∈ net.signed

def Possible (net : Net Node) : Event Node → Prop
  | .join _ _ nonce nonce' => Fresh net nonce.1 ∧ Fresh net nonce'.1 ∧ nonce ≠ nonce'
  | .tap _ _ nonce => Fresh net nonce.1
  | .inject k msg => ∀ endpoint, net.links[k]? = some (.tapped endpoint) →
      Unforged identity net endpoint msg
  | _ => True

/-! The claims that a run is judged by. -/

/-- The text spells the public key of a node. -/
def Spells (node : Node) (sender : Value) : Prop :=
  ∃ text, sender = .str text ∧ Hex.fromhex text = some (identity node).publicBytes

/-- A node under whose key the message is dispatched sent it, on a connection that it had
authenticated with the node that dispatches it. -/
def SentByNamed (calls : List (Call Node)) (message : Dispatched Node) : Prop :=
  ∀ node, Spells identity node message.sender →
    ∃ call ∈ calls, (identity call.node).publicBytes = (identity node).publicBytes ∧
      call.remotePubkey = some (identity message.node).pubkeyHex ∧
      message.msgType = .str call.msgType ∧ message.payload = call.payload

def Attributed (net : Net Node) : Prop :=
  ∀ message ∈ net.dispatched, SentByNamed identity net.calls message

end Steps

end Gyza.Sessions

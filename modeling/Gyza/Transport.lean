import Gyza.Crypto
import Gyza.Lib.PyValue

/-! The authenticated transport (`gyza/network/transport.py`): one end of a
connection, from the frames it receives to the frames and messages it emits.

A frame is the dictionary that both ends see. The TLS below it authenticates
nobody; the handshake signs bare nonces. -/

namespace Gyza

open Hex (Bytes)
open PyValue (Fields Value dictGet)

structure GyzaProtocol where
  isInitiator : Bool
  ourNonce : Bytes
  ourNonce_length : ourNonce.length = 32
  authenticated : Bool := false
  closed : Bool := false
  remotePubkey : Option String := none
  remotePubkeyPending : Option String := none

namespace GyzaProtocol

/-- What handling a frame does to the outside. -/
inductive Action where
  | sendFrame (msg : Fields)
  /-- `_on_peer_authenticated`. -/
  | peerAuthenticated (remotePubkey : String)
  /-- `_dispatch_app_message`, which the event loop runs later. -/
  | dispatchApp (msgType sender : Value) (payload : Fields)

/-- `_close_with`; frames that are already here are still handled. -/
def closeWith (protocol : GyzaProtocol) : GyzaProtocol × List Action :=
  ({ protocol with closed := true }, [])

section Handlers

variable {crypto : Crypto} (identity : LocalCompositor crypto)

def helloFrame (protocol : GyzaProtocol) (response : Option String) : Fields :=
  [("type", .str "hello"), ("pubkey", .str identity.pubkeyHex),
    ("nonce", .str (Hex.encode protocol.ourNonce))] ++
    response.toList.map (fun response => ("response", .str response))

def helloAckFrame (response : String) : Fields :=
  [("type", .str "hello_ack"), ("pubkey", .str identity.pubkeyHex), ("response", .str response)]

/-- The initiator's frame on `HandshakeCompleted`. -/
def openingFrames (protocol : GyzaProtocol) : List Action :=
  if protocol.isInitiator then [.sendFrame (helloFrame identity protocol none)] else []

/-- `from_public_bytes(pk).verify(bytes.fromhex(response_hex), nonce)` does not raise. -/
def responseVerifies (crypto : Crypto) (pk : Bytes) (responseHex : String) (nonce : Bytes) : Bool :=
  match Hex.fromhex responseHex with
  | none => false
  | some sig => pk.length = 32 && crypto.ed25519Verify pk nonce sig

def handleHello (protocol : GyzaProtocol) (msg : Fields) : GyzaProtocol × List Action :=
  match dictGet msg "pubkey" .none, dictGet msg "nonce" .none with
  | .str pubkeyHex, .str nonceHex =>
      match Hex.fromhex pubkeyHex, Hex.fromhex nonceHex with
      | some pkBytes, some theirNonce =>
          if pkBytes.length ≠ 32 ∨ theirNonce.length ≠ 32 then protocol.closeWith
          else if pubkeyHex = identity.pubkeyHex then protocol.closeWith
          else if protocol.isInitiator then
            match dictGet msg "response" .none with
            | .str responseHex =>
                if responseVerifies crypto pkBytes responseHex protocol.ourNonce then
                  ({ protocol with remotePubkey := some pubkeyHex, authenticated := true },
                    [.sendFrame (helloAckFrame identity (identity.sign theirNonce)),
                      .peerAuthenticated pubkeyHex])
                else protocol.closeWith
            | _ => protocol.closeWith
          else
            ({ protocol with remotePubkeyPending := some pubkeyHex },
              [.sendFrame (helloFrame identity protocol (some (identity.sign theirNonce)))])
      | _, _ => protocol.closeWith
  | _, _ => protocol.closeWith

def handleHelloAck (crypto : Crypto) (protocol : GyzaProtocol) (msg : Fields) :
    GyzaProtocol × List Action :=
  if protocol.isInitiator then protocol.closeWith
  else
    match protocol.remotePubkeyPending, dictGet msg "response" .none with
    | some pending, .str responseHex =>
        match Hex.fromhex pending with
        | none => protocol.closeWith
        | some pk =>
            if responseVerifies crypto pk responseHex protocol.ourNonce then
              ({ protocol with remotePubkey := some pending, authenticated := true },
                [.peerAuthenticated pending])
            else protocol.closeWith
    | _, _ => protocol.closeWith

/-- `msg.get("sender") or self._remote_pubkey`. -/
def senderOf (protocol : GyzaProtocol) (msg : Fields) : Value :=
  if (dictGet msg "sender" .none).truthy then dictGet msg "sender" .none
  else protocol.remotePubkey.elim .none .str

def payloadOf (msg : Fields) : Fields :=
  match dictGet msg "payload" (.dict []) with
  | .dict payload => payload
  | other => [("_raw", other)]

/-- `_dispatch`, for a frame with a `type`. -/
def dispatch (protocol : GyzaProtocol) (msg : Fields) : GyzaProtocol × List Action :=
  match dictGet msg "type" .none with
  | .str "hello" => handleHello identity protocol msg
  | .str "hello_ack" => handleHelloAck crypto protocol msg
  | msgType =>
      if protocol.authenticated = false then protocol.closeWith
      else (protocol, [.dispatchApp msgType (protocol.senderOf msg) (payloadOf msg)])

def appFrame (msgType : String) (timestampNs : Int) (payload : Fields) : Fields :=
  [("type", .str msgType), ("sender", .str identity.pubkeyHex), ("timestamp_ns", .int timestampNs),
    ("payload", .dict payload)]

/-- `send_app`; a frame that does not fit `MAX_MESSAGE_SIZE` is not sent. -/
def sendApp (fits : Fields → Bool) (protocol : GyzaProtocol) (msgType : String) (timestampNs : Int)
    (payload : Fields) : List Action :=
  if protocol.authenticated = false ∨ protocol.closed = true then []
  else if fits (appFrame identity msgType timestampNs payload) = false then []
  else [.sendFrame (appFrame identity msgType timestampNs payload)]

/-- The frame is a well-formed hello from a key other than the node's own. -/
structure HelloFrom (msg : Fields) (pubkeyHex : String) (pk theirNonce : Bytes) : Prop where
  isHello : dictGet msg "type" .none = .str "hello"
  named : dictGet msg "pubkey" .none = .str pubkeyHex
  decoded : Hex.fromhex pubkeyHex = some pk
  pk_length : pk.length = 32
  carries : ∃ nonceHex, dictGet msg "nonce" .none = .str nonceHex ∧
    Hex.fromhex nonceHex = some theirNonce
  nonce_length : theirNonce.length = 32
  foreign : pubkeyHex ≠ identity.pubkeyHex

/-- Everything that handling a frame can do. -/
inductive Handled (protocol : GyzaProtocol) (msg : Fields) : GyzaProtocol → List Action → Prop where
  | refused : Handled protocol msg { protocol with closed := true } []
  /-- The initiator sees its nonce signed by the key of the hello. -/
  | proved (pubkeyHex responseHex : String) (pk theirNonce : Bytes)
      (hello : HelloFrom identity msg pubkeyHex pk theirNonce)
      (initiator : protocol.isInitiator = true)
      (given : dictGet msg "response" .none = .str responseHex)
      (verified : responseVerifies crypto pk responseHex protocol.ourNonce = true) :
      Handled protocol msg { protocol with remotePubkey := some pubkeyHex, authenticated := true }
        [.sendFrame (helloAckFrame identity (identity.sign theirNonce)),
          .peerAuthenticated pubkeyHex]
  | challenged (pubkeyHex : String) (pk theirNonce : Bytes)
      (hello : HelloFrom identity msg pubkeyHex pk theirNonce)
      (responder : protocol.isInitiator = false) :
      Handled protocol msg { protocol with remotePubkeyPending := some pubkeyHex }
        [.sendFrame (helloFrame identity protocol (some (identity.sign theirNonce)))]
  /-- The responder sees its nonce signed by the key of the last hello. -/
  | acknowledged (pending responseHex : String) (pk : Bytes)
      (isAck : dictGet msg "type" .none = .str "hello_ack")
      (responder : protocol.isInitiator = false)
      (stored : protocol.remotePubkeyPending = some pending)
      (decoded : Hex.fromhex pending = some pk)
      (given : dictGet msg "response" .none = .str responseHex)
      (verified : responseVerifies crypto pk responseHex protocol.ourNonce = true) :
      Handled protocol msg { protocol with remotePubkey := some pending, authenticated := true }
        [.peerAuthenticated pending]
  | app (authenticated : protocol.authenticated = true)
      (notHello : dictGet msg "type" .none ≠ .str "hello")
      (notAck : dictGet msg "type" .none ≠ .str "hello_ack") :
      Handled protocol msg protocol
        [.dispatchApp (dictGet msg "type" .none) (protocol.senderOf msg) (payloadOf msg)]

end Handlers

variable {crypto : Crypto} (identity : LocalCompositor crypto)

theorem handleHello_handled (protocol : GyzaProtocol) {msg : Fields}
    (isHello : dictGet msg "type" .none = .str "hello") :
    Handled identity protocol msg (handleHello identity protocol msg).1
      (handleHello identity protocol msg).2 := by
  unfold handleHello
  split
  next pubkeyHex nonceHex named given =>
    split
    next pk nonce decoded carried =>
      split_ifs with sizes own initiator
      · exact .refused
      · exact .refused
      · push Not at sizes
        split
        next responseHex response =>
          split_ifs with verified
          · exact .proved pubkeyHex responseHex pk nonce
              ⟨isHello, named, decoded, sizes.1, ⟨nonceHex, given, carried⟩, sizes.2, own⟩
              initiator response verified
          · exact .refused
        next => exact .refused
      · push Not at sizes
        exact .challenged pubkeyHex pk nonce
          ⟨isHello, named, decoded, sizes.1, ⟨nonceHex, given, carried⟩, sizes.2, own⟩
          (by simpa using initiator)
    next => exact .refused
  next => exact .refused

theorem handleHelloAck_handled (protocol : GyzaProtocol) {msg : Fields}
    (isAck : dictGet msg "type" .none = .str "hello_ack") :
    Handled identity protocol msg (handleHelloAck crypto protocol msg).1
      (handleHelloAck crypto protocol msg).2 := by
  unfold handleHelloAck
  split_ifs with initiator
  · exact .refused
  · split
    next pending responseHex stored given =>
      split
      next => exact .refused
      next pk decoded =>
        split_ifs with verified
        · exact .acknowledged pending responseHex pk isAck (by simpa using initiator) stored decoded
            given verified
        · exact .refused
    next => exact .refused

theorem dispatch_handled (protocol : GyzaProtocol) (msg : Fields) :
    Handled identity protocol msg (dispatch identity protocol msg).1
      (dispatch identity protocol msg).2 := by
  unfold dispatch
  split
  next isHello => exact handleHello_handled identity protocol isHello
  next isAck => exact handleHelloAck_handled identity protocol isAck
  next notHello notAck =>
    split_ifs with unauthenticated
    · exact .refused
    · exact .app (by simpa using unauthenticated) notHello notAck

/-- A hello is answered with the signature of its nonce. -/
theorem dispatch_challenged {protocol : GyzaProtocol} {msg : Fields} {pubkeyHex : String}
    {pk theirNonce : Bytes} (hello : HelloFrom identity msg pubkeyHex pk theirNonce)
    (responder : protocol.isInitiator = false) :
    dispatch identity protocol msg = ({ protocol with remotePubkeyPending := some pubkeyHex },
      [.sendFrame (helloFrame identity protocol (some (identity.sign theirNonce)))]) := by
  obtain ⟨nonceHex, given, carried⟩ := hello.carries
  simp [dispatch, hello.isHello, handleHello, hello.named, given, hello.decoded, carried,
    hello.pk_length, hello.nonce_length, hello.foreign, responder]

theorem dispatch_proved {protocol : GyzaProtocol} {msg : Fields} {pubkeyHex responseHex : String}
    {pk theirNonce : Bytes} (hello : HelloFrom identity msg pubkeyHex pk theirNonce)
    (initiator : protocol.isInitiator = true)
    (response : dictGet msg "response" .none = .str responseHex)
    (verified : responseVerifies crypto pk responseHex protocol.ourNonce = true) :
    dispatch identity protocol msg =
      ({ protocol with remotePubkey := some pubkeyHex, authenticated := true },
        [.sendFrame (helloAckFrame identity (identity.sign theirNonce)),
          .peerAuthenticated pubkeyHex]) := by
  obtain ⟨nonceHex, given, carried⟩ := hello.carries
  simp [dispatch, hello.isHello, handleHello, hello.named, given, hello.decoded, carried,
    hello.pk_length, hello.nonce_length, hello.foreign, initiator, response, verified]

end GyzaProtocol

end Gyza

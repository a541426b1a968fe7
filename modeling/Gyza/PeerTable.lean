import Gyza.Transport
import Gyza.Lib.Dict
import Gyza.Lib.Run

/-! The table of peers of `gyza/network/transport.py`, over every order of the events of
one node's connections.

An entry is keyed by the public key and owned by a connection; a termination names the
key alone. -/

namespace Gyza

open Hex (Bytes)
open PyValue (Fields Value dictGet)

structure PeerConnection where
  remotePubkey : String
  remoteAddr : String × Int
  connectedAt : Int
  lastSeenNs : Int
  messagesSent : Nat := 0
  messagesReceived : Nat := 0
  /-- The number of `_protocol`, which is always given. -/
  protocol : Nat

/-- A transport with all the protocols and `PeerConnection`s that it has made, each
numbered as it came. `peers` holds numbers of records, `outbound` the protocol of each
holder, and `sweep` what the heartbeat loop has still to look at of its copy. -/
structure GyzaTransport where
  protocols : List GyzaProtocol
  records : List PeerConnection
  peers : Dict String Nat
  outbound : Dict String Nat
  sweep : List (String × Nat)

namespace GyzaTransport

open GyzaProtocol (Action Handled HelloFrom dispatch responseVerifies)

def fresh : GyzaTransport := ⟨[], [], Dict.empty, Dict.empty, []⟩

/-- `_on_peer_authenticated`. -/
def onPeerAuthenticated (transport : GyzaTransport) (conn : Nat) (remotePubkey : String)
    (addr : String × Int) (nowNs : Int) : GyzaTransport :=
  match transport.peers.lookup remotePubkey with
  | none => { transport with
      records := transport.records ++ [⟨remotePubkey, addr, nowNs, nowNs, 0, 0, conn⟩]
      peers := transport.peers.set remotePubkey transport.records.length }
  | some record => { transport with
      records := transport.records.modify record fun existing =>
        { existing with protocol := conn, lastSeenNs := nowNs, remoteAddr := addr } }

/-- `_on_peer_disconnected`. -/
def onPeerDisconnected (transport : GyzaTransport) (remotePubkey : String) : GyzaTransport :=
  { transport with
    peers := transport.peers.pop remotePubkey, outbound := transport.outbound.pop remotePubkey }

/-- `_touch_peer`. -/
def touchPeer (transport : GyzaTransport) (remotePubkey : Option String) (sent received : Bool)
    (nowNs : Int) : GyzaTransport :=
  match remotePubkey.bind transport.peers.lookup with
  | none => transport
  | some record => { transport with
      records := transport.records.modify record fun peer =>
        { peer with
          lastSeenNs := nowNs
          messagesSent := peer.messagesSent + sent.toNat
          messagesReceived := peer.messagesReceived + received.toNat } }

/-- `_close_with` on a connection. -/
def closeConnection (transport : GyzaTransport) (conn : Nat) : GyzaTransport :=
  { transport with
    protocols := transport.protocols.modify conn fun protocol => { protocol with closed := true } }

/-- A connection's protocol after a frame. -/
def setProtocol (transport : GyzaTransport) (conn : Nat) (protocol : GyzaProtocol) : GyzaTransport :=
  { transport with protocols := transport.protocols.set conn protocol }

inductive Event where
  /-- A connection comes up, in either role. -/
  | opened (isInitiator : Bool) (ourNonce : { nonce : Bytes // nonce.length = 32 })
  | frame (conn : Nat) (msg : Fields) (addr : String × Int) (nowNs : Int)
  /-- Data that is no frame, or the end of the stream. -/
  | broken (conn : Nat)
  /-- `ConnectionTerminated`. -/
  | terminated (conn : Nat)
  /-- `connect` goes on, its connection being authenticated. -/
  | connected (conn : Nat) (addr : String × Int)
  /-- `send_app` sends a frame. -/
  | sent (conn : Nat) (nowNs : Int)
  /-- The heartbeat loop copies the table. -/
  | heartbeat
  /-- The heartbeat loop looks at the next entry of its copy. -/
  | sweepNext (nowNs timeoutNs : Int)

section Steps

variable {crypto : Crypto} (identity : LocalCompositor crypto)

def act (conn : Nat) (protocol : GyzaProtocol) (addr : String × Int) (nowNs : Int)
    (transport : GyzaTransport) : Action → GyzaTransport
  | .sendFrame _ => transport
  | .peerAuthenticated remotePubkey => transport.onPeerAuthenticated conn remotePubkey addr nowNs
  | .dispatchApp _ _ _ => transport.touchPeer protocol.remotePubkey false true nowNs

/-- A frame without a `type` closes the connection. -/
def handleFrame (protocol : GyzaProtocol) (msg : Fields) : GyzaProtocol × List Action :=
  if (msg.lookup "type").isNone then protocol.closeWith else dispatch identity protocol msg

def receive (transport : GyzaTransport) (conn : Nat) (msg : Fields) (addr : String × Int)
    (nowNs : Int) : GyzaTransport :=
  match transport.protocols[conn]? with
  | none => transport
  | some protocol =>
      let handled := handleFrame identity protocol msg
      handled.2.foldl (act conn handled.1 addr nowNs) (transport.setProtocol conn handled.1)

/-- The rest of `connect`; a duplicate's holder is closed, which terminates it later. -/
def finishConnect (transport : GyzaTransport) (conn : Nat) (addr : String × Int) : GyzaTransport :=
  match transport.protocols[conn]? with
  | none => transport
  | some protocol =>
      match protocol.authenticated, protocol.remotePubkey with
      | true, some remotePk =>
          match transport.peers.lookup remotePk with
          | none => { transport with outbound := transport.outbound.set remotePk conn }
          | some record =>
              if (transport.records[record]?).any fun existing => existing.protocol ≠ conn then
                transport
              else { transport with
                outbound := transport.outbound.set remotePk conn
                records := transport.records.modify record fun peer =>
                  { peer with remoteAddr := addr } }
      | _, _ => transport

/-- `send_app`, once its frame is out. -/
def noteSent (transport : GyzaTransport) (conn : Nat) (nowNs : Int) : GyzaTransport :=
  match transport.protocols[conn]? with
  | none => transport
  | some protocol =>
      if protocol.authenticated = false ∨ protocol.closed = true then transport
      else transport.touchPeer protocol.remotePubkey true false nowNs

def sweepStep (transport : GyzaTransport) (nowNs timeoutNs : Int) : GyzaTransport :=
  match transport.sweep with
  | [] => transport
  | (pk, record) :: rest =>
      match transport.records[record]? with
      | none => { transport with sweep := rest }
      | some peer =>
          if timeoutNs < nowNs - peer.lastSeenNs then
            ({ transport with sweep := rest }.closeConnection peer.protocol).onPeerDisconnected pk
          else { transport with sweep := rest }

def step (transport : GyzaTransport) : Event → GyzaTransport
  | .opened isInitiator ourNonce =>
      { transport with
        protocols := transport.protocols ++ [{
          isInitiator, ourNonce := ourNonce.1, ourNonce_length := ourNonce.2 }] }
  | .frame conn msg addr nowNs => receive identity transport conn msg addr nowNs
  | .broken conn => transport.closeConnection conn
  | .terminated conn =>
      match (transport.protocols[conn]?).bind GyzaProtocol.remotePubkey with
      | none => transport.closeConnection conn
      | some remotePubkey => (transport.closeConnection conn).onPeerDisconnected remotePubkey
  | .connected conn addr => transport.finishConnect conn addr
  | .sent conn nowNs => transport.noteSent conn nowNs
  | .heartbeat => { transport with sweep := transport.peers.rows }
  | .sweepNext nowNs timeoutNs => transport.sweepStep nowNs timeoutNs

end Steps

/-! What the table is for. -/

/-- Every entry maps its key to an authenticated protocol of that key. -/
def Mirrors (transport : GyzaTransport) : Prop :=
  ∀ pk record, transport.peers.lookup pk = some record → ∃ peer protocol,
    transport.records[record]? = some peer ∧ peer.remotePubkey = pk ∧
    transport.protocols[peer.protocol]? = some protocol ∧ protocol.authenticated = true ∧
    protocol.remotePubkey = some pk

/-- What a step may do to connections and entries. -/
structure StepLaw (before after : GyzaTransport) : Prop where
  /-- An authenticated connection keeps its key. -/
  settled : ∀ (conn : Nat) protocol, before.protocols[conn]? = some protocol →
    protocol.authenticated = true → ∃ later, after.protocols[conn]? = some later ∧
      later.authenticated = true ∧ later.remotePubkey = protocol.remotePubkey
  /-- The entry of an open connection is removed only with the connection. -/
  entries : ∀ pk record peer protocol, before.peers.lookup pk = some record →
    before.records[record]? = some peer → before.protocols[peer.protocol]? = some protocol →
    protocol.authenticated = true → protocol.closed = false →
    after.peers.lookup pk ≠ none ∨
      ∃ later, after.protocols[peer.protocol]? = some later ∧ later.closed = true

/-! When a step does it. -/

section Allowed

variable {crypto : Crypto} (identity : LocalCompositor crypto)

/-- The frame proves that the other end has the key. -/
def Proves (protocol : GyzaProtocol) (msg : Fields) (pubkeyHex : String) : Prop :=
  ∃ pk responseHex, dictGet msg "response" .none = .str responseHex ∧
    Hex.fromhex pubkeyHex = some pk ∧
    responseVerifies crypto pk responseHex protocol.ourNonce = true ∧
    (protocol.isInitiator = true ∧ (∃ theirNonce, HelloFrom identity msg pubkeyHex pk theirNonce) ∨
      protocol.isInitiator = false ∧ dictGet msg "type" .none = .str "hello_ack" ∧
        protocol.remotePubkeyPending = some pubkeyHex)

/-- The entry of the key belongs to no other open connection. -/
def OwnEntry (transport : GyzaTransport) (pk : String) (conn : Nat) : Prop :=
  ∀ record peer protocol, transport.peers.lookup pk = some record →
    transport.records[record]? = some peer → transport.protocols[peer.protocol]? = some protocol →
    peer.protocol ≠ conn → protocol.closed = true

def Allowed (transport : GyzaTransport) : Event → Prop
  | .frame conn msg _ _ => ∀ protocol pubkeyHex, transport.protocols[conn]? = some protocol →
      protocol.authenticated = true → Proves identity protocol msg pubkeyHex →
      protocol.remotePubkey = some pubkeyHex
  | .terminated conn => ∀ protocol pk, transport.protocols[conn]? = some protocol →
      protocol.remotePubkey = some pk → transport.OwnEntry pk conn
  | .sweepNext nowNs timeoutNs => ∀ pk record rest peer, transport.sweep = (pk, record) :: rest →
      transport.records[record]? = some peer → timeoutNs < nowNs - peer.lastSeenNs →
      transport.OwnEntry pk peer.protocol
  | _ => True

end Allowed

/-! The table under each operation. -/

section Operations

variable {before after transport : GyzaTransport}

/-- A step that makes no entry, and changes neither the key nor the owner of a record. -/
structure Keeps (before after : GyzaTransport) : Prop where
  settled : ∀ (conn : Nat) protocol, before.protocols[conn]? = some protocol →
    protocol.authenticated = true → ∃ later, after.protocols[conn]? = some later ∧
      later.authenticated = true ∧ later.remotePubkey = protocol.remotePubkey
  records : ∀ (record : Nat) peer, before.records[record]? = some peer → ∃ later,
    after.records[record]? = some later ∧ later.remotePubkey = peer.remotePubkey ∧
      later.protocol = peer.protocol
  peers : ∀ pk record, after.peers.lookup pk = some record → before.peers.lookup pk = some record

theorem Keeps.mirrors (keeps : Keeps before after) (mirrors : Mirrors before) : Mirrors after := by
  intro pk record entry
  obtain ⟨peer, protocol, held, named, owned, authenticated, key⟩ :=
    mirrors pk record (keeps.peers pk record entry)
  obtain ⟨peer', held', named', owner⟩ := keeps.records record peer held
  obtain ⟨protocol', owned', authenticated', key'⟩ :=
    keeps.settled peer.protocol protocol owned authenticated
  rw [← owner] at owned'
  exact ⟨peer', protocol', held', named'.trans named, owned', authenticated', key'.trans key⟩

theorem settled_refl (conn : Nat) (protocol : GyzaProtocol)
    (here : transport.protocols[conn]? = some protocol) (authenticated : protocol.authenticated = true) :
    ∃ later, transport.protocols[conn]? = some later ∧ later.authenticated = true ∧
      later.remotePubkey = protocol.remotePubkey := ⟨protocol, here, authenticated, rfl⟩

theorem records_refl (record : Nat) (peer : PeerConnection)
    (held : transport.records[record]? = some peer) : ∃ later,
    transport.records[record]? = some later ∧ later.remotePubkey = peer.remotePubkey ∧
      later.protocol = peer.protocol := ⟨peer, held, rfl, rfl⟩

theorem Keeps.refl : Keeps transport transport := ⟨settled_refl, records_refl, fun _ _ => id⟩

/-- Changing a record's other fields. -/
theorem records_modify {change : PeerConnection → PeerConnection}
    (same : ∀ peer, (change peer).remotePubkey = peer.remotePubkey ∧
      (change peer).protocol = peer.protocol) {changed record : Nat} {peer : PeerConnection}
    (held : transport.records[record]? = some peer) : ∃ later,
    (transport.records.modify changed change)[record]? = some later ∧
      later.remotePubkey = peer.remotePubkey ∧ later.protocol = peer.protocol := by
  rw [List.getElem?_modify, held]
  by_cases here : changed = record
  · exact ⟨change peer, by simp [here], same peer⟩
  · exact ⟨peer, by simp [here], rfl, rfl⟩

theorem touchPeer_keeps (remotePubkey : Option String) (sent received : Bool) (nowNs : Int) :
    Keeps transport (transport.touchPeer remotePubkey sent received nowNs) := by
  unfold touchPeer
  split
  · exact Keeps.refl
  · refine ⟨settled_refl, ?_, fun _ _ => id⟩
    intro record peer held
    refine records_modify ?_ held
    exact fun _ => ⟨rfl, rfl⟩

/-- Protocols that stay as they are, but for an unauthenticated one or an agreeing change. -/
theorem settled_set {conn : Nat} {protocol protocol' : GyzaProtocol}
    (here : transport.protocols[conn]? = some protocol)
    (agrees : protocol.authenticated = true →
      protocol'.authenticated = true ∧ protocol'.remotePubkey = protocol.remotePubkey)
    (other : Nat) (old : GyzaProtocol) (there : transport.protocols[other]? = some old)
    (authenticated : old.authenticated = true) :
    ∃ later, (transport.setProtocol conn protocol').protocols[other]? = some later ∧
      later.authenticated = true ∧ later.remotePubkey = old.remotePubkey := by
  unfold setProtocol
  by_cases same : conn = other
  · subst same
    rw [here] at there
    cases there
    have bound : conn < transport.protocols.length := (List.getElem?_eq_some_iff.mp here).1
    exact ⟨protocol', by rw [List.getElem?_set_self bound], agrees authenticated⟩
  · exact ⟨old, by rw [List.getElem?_set_ne same, there], authenticated, rfl⟩

theorem closeConnection_settled (conn other : Nat) (old : GyzaProtocol)
    (there : transport.protocols[other]? = some old) (authenticated : old.authenticated = true) :
    ∃ later, (transport.closeConnection conn).protocols[other]? = some later ∧
      later.authenticated = true ∧ later.remotePubkey = old.remotePubkey := by
  rw [closeConnection, List.getElem?_modify, there]
  by_cases same : conn = other
  · exact ⟨{ old with closed := true }, by simp [same], authenticated, rfl⟩
  · exact ⟨old, by simp [same], authenticated, rfl⟩

theorem closeConnection_keeps (conn : Nat) : Keeps transport (transport.closeConnection conn) :=
  ⟨closeConnection_settled conn, records_refl, fun _ _ => id⟩

theorem onPeerDisconnected_keeps (pk : String) : Keeps transport (transport.onPeerDisconnected pk) := by
  refine ⟨settled_refl, records_refl, ?_⟩
  intro other record entry
  rw [onPeerDisconnected, Dict.lookup_pop] at entry
  split_ifs at entry
  exact entry

theorem Keeps.trans {third : GyzaTransport} (first : Keeps before after) (second : Keeps after third) :
    Keeps before third where
  settled := by
    intro conn protocol here authenticated
    obtain ⟨mid, there, still, key⟩ := first.settled conn protocol here authenticated
    obtain ⟨later, last, now, key'⟩ := second.settled conn mid there still
    exact ⟨later, last, now, key'.trans key⟩
  records := by
    intro record peer held
    obtain ⟨mid, there, named, owner⟩ := first.records record peer held
    obtain ⟨later, last, named', owner'⟩ := second.records record mid there
    exact ⟨later, last, named'.trans named, owner'.trans owner⟩
  peers := fun pk record entry => first.peers pk record (second.peers pk record entry)

/-- The entry of a connection that has just been authenticated. -/
theorem onPeerAuthenticated_mirrors (mirrors : Mirrors transport) {conn : Nat} {pk : String}
    {protocol : GyzaProtocol} (here : transport.protocols[conn]? = some protocol)
    (authenticated : protocol.authenticated = true) (key : protocol.remotePubkey = some pk)
    (addr : String × Int) (nowNs : Int) :
    Mirrors (transport.onPeerAuthenticated conn pk addr nowNs) := by
  intro other record entry
  unfold onPeerAuthenticated at entry ⊢
  cases known : transport.peers.lookup pk with
  | none =>
      rw [known] at entry
      dsimp only at entry ⊢
      rw [Dict.lookup_set] at entry
      split_ifs at entry with same
      · cases entry
        exact ⟨_, protocol, List.getElem?_concat_length, same, here, authenticated, same ▸ key⟩
      · obtain ⟨peer, owner, held, rest⟩ := mirrors other record entry
        have bound : record < transport.records.length := (List.getElem?_eq_some_iff.mp held).1
        exact ⟨peer, owner, by rw [List.getElem?_append_left bound, held], rest⟩
  | some existing =>
      rw [known] at entry
      dsimp only at entry ⊢
      obtain ⟨peer, owner, held, named, rest⟩ := mirrors other record entry
      rw [List.getElem?_modify, held]
      by_cases same : existing = record
      · obtain ⟨peer', owner', held', named', -⟩ := mirrors pk existing known
        rw [same, held] at held'
        cases held'
        rw [named] at named'
        subst named'
        exact ⟨{ peer with protocol := conn, lastSeenNs := nowNs, remoteAddr := addr }, protocol,
          by simp [same], named, here, authenticated, key⟩
      · exact ⟨peer, owner, by simp [same], named, rest⟩

/-- It removes no entry. -/
theorem onPeerAuthenticated_entries (conn : Nat) (pk other : String) (addr : String × Int)
    (nowNs : Int) (entry : transport.peers.lookup other ≠ none) :
    (transport.onPeerAuthenticated conn pk addr nowNs).peers.lookup other ≠ none := by
  unfold onPeerAuthenticated
  split
  · dsimp only
    rw [Dict.lookup_set]
    split_ifs
    · exact Option.some_ne_none _
    · exact entry
  · exact entry

theorem touchPeer_peers (remotePubkey : Option String) (sent received : Bool) (nowNs : Int) :
    (transport.touchPeer remotePubkey sent received nowNs).peers = transport.peers := by
  unfold touchPeer
  split <;> rfl

theorem touchPeer_protocols (remotePubkey : Option String) (sent received : Bool) (nowNs : Int) :
    (transport.touchPeer remotePubkey sent received nowNs).protocols = transport.protocols := by
  unfold touchPeer
  split <;> rfl

theorem onPeerAuthenticated_protocols (conn : Nat) (pk : String) (addr : String × Int) (nowNs : Int) :
    (transport.onPeerAuthenticated conn pk addr nowNs).protocols = transport.protocols := by
  unfold onPeerAuthenticated
  split <;> rfl

/-- An operation that keeps every entry owes nothing for them. -/
theorem StepLaw.of_entries
    (settled : ∀ (conn : Nat) protocol, before.protocols[conn]? = some protocol →
      protocol.authenticated = true → ∃ later, after.protocols[conn]? = some later ∧
        later.authenticated = true ∧ later.remotePubkey = protocol.remotePubkey)
    (entries : ∀ pk, before.peers.lookup pk ≠ none → after.peers.lookup pk ≠ none) :
    StepLaw before after :=
  ⟨settled, fun pk record _ _ entry _ _ _ _ => Or.inl (entries pk (by rw [entry]; simp))⟩

theorem Keeps.stepLaw (keeps : Keeps before after) (same : after.peers = before.peers) :
    StepLaw before after :=
  StepLaw.of_entries keeps.settled fun _ entry => by rwa [same]

/-- Closing a connection and removing the entry of a key is lawful exactly when the entry
belongs to no other open connection. -/
theorem removal_iff (mirrors : Mirrors before) (conn : Nat) (pk : String) :
    StepLaw before ((before.closeConnection conn).onPeerDisconnected pk) ↔ before.OwnEntry pk conn := by
  have others : ∀ (other : Nat) (protocol : GyzaProtocol), other ≠ conn →
      before.protocols[other]? = some protocol →
      ((before.closeConnection conn).onPeerDisconnected pk).protocols[other]? = some protocol := by
    intro other protocol apart here
    rw [onPeerDisconnected, closeConnection, List.getElem?_modify, here]
    simp [apart.symm]
  have keeps : Keeps before ((before.closeConnection conn).onPeerDisconnected pk) :=
    (closeConnection_keeps conn).trans (onPeerDisconnected_keeps pk)
  constructor
  · intro law record peer protocol entry held owned apart
    by_contra opened
    obtain ⟨peer', protocol', held', -, owned', authenticated, -⟩ := mirrors pk record entry
    rw [held] at held'
    cases held'
    rw [owned] at owned'
    cases owned'
    rcases law.entries pk record peer protocol entry held owned authenticated (by simpa using opened) with
      still | ⟨later, there, closed⟩
    · rw [onPeerDisconnected, Dict.lookup_pop, if_pos rfl] at still
      exact still rfl
    · rw [others _ _ apart owned] at there
      cases there
      exact opened closed
  · intro own
    refine ⟨keeps.settled, ?_⟩
    intro other record peer protocol entry held owned authenticated opened
    rw [onPeerDisconnected, Dict.lookup_pop]
    by_cases same : pk = other
    · subst same
      by_cases mine : peer.protocol = conn
      · refine Or.inr ⟨{ protocol with closed := true }, ?_, rfl⟩
        rw [closeConnection, List.getElem?_modify, owned]
        simp [mine]
      · rw [own record peer protocol entry held owned mine] at opened
        cases opened
    · rw [if_neg same]
      exact Or.inl (by
        show before.peers.lookup other ≠ none
        rw [entry]
        exact Option.some_ne_none _)

end Operations

/-! A frame. -/

section Frames

variable {crypto : Crypto} {identity : LocalCompositor crypto} {transport : GyzaTransport}
  {protocol : GyzaProtocol} {msg : Fields}

theorem handleFrame_handled (protocol : GyzaProtocol) (msg : Fields) :
    Handled identity protocol msg (handleFrame identity protocol msg).1
      (handleFrame identity protocol msg).2 := by
  unfold handleFrame
  split_ifs
  · exact .refused
  · exact GyzaProtocol.dispatch_handled identity protocol msg

/-- A frame of a known type has one. -/
theorem handleFrame_typed {kind : String} (typed : dictGet msg "type" .none = .str kind) :
    handleFrame identity protocol msg = dispatch identity protocol msg := by
  rw [handleFrame, if_neg]
  intro untyped
  rw [Option.isNone_iff_eq_none] at untyped
  rw [dictGet, untyped] at typed
  cases typed

/-- A proof of a key settles it. -/
theorem Proves.key {pubkeyHex : String} (proves : Proves identity protocol msg pubkeyHex) :
    (handleFrame identity protocol msg).1.remotePubkey = some pubkeyHex := by
  obtain ⟨pk, responseHex, response, decoded, verified,
    ⟨initiator, theirNonce, hello⟩ | ⟨responder, isAck, pending⟩⟩ := proves
  · rw [handleFrame_typed hello.isHello,
      GyzaProtocol.dispatch_proved identity hello initiator response verified]
  · rw [handleFrame_typed isAck]
    simp [dispatch, isAck, GyzaProtocol.handleHelloAck, responder, pending, response, decoded, verified]

theorem act_protocols (conn : Nat) (later : GyzaProtocol) (addr : String × Int) (nowNs : Int)
    (actions : List Action) : (actions.foldl (act conn later addr nowNs) transport).protocols =
      transport.protocols := by
  induction actions generalizing transport with
  | nil => rfl
  | cons action rest ih =>
      rw [List.foldl_cons, ih]
      cases action with
      | sendFrame frame => rfl
      | peerAuthenticated pk => exact onPeerAuthenticated_protocols conn pk addr nowNs
      | dispatchApp msgType sender payload => exact touchPeer_protocols _ _ _ _

/-- A change that settles nothing new. -/
theorem setProtocol_keeps {conn : Nat} {later : GyzaProtocol}
    (here : transport.protocols[conn]? = some protocol)
    (agrees : protocol.authenticated = true →
      later.authenticated = true ∧ later.remotePubkey = protocol.remotePubkey) :
    Keeps transport (transport.setProtocol conn later) :=
  ⟨settled_set here agrees, records_refl, fun _ _ => id⟩

/-- The connection keeps its key, if it had one, and gives it to the table. -/
theorem authenticate_law (mirrors : Mirrors transport) {conn : Nat}
    (here : transport.protocols[conn]? = some protocol) {pubkeyHex : String}
    (same : protocol.authenticated = true → protocol.remotePubkey = some pubkeyHex)
    {later : GyzaProtocol} (authenticated : later.authenticated = true)
    (key : later.remotePubkey = some pubkeyHex) (addr : String × Int) (nowNs : Int) :
    StepLaw transport
        ((transport.setProtocol conn later).onPeerAuthenticated conn pubkeyHex addr nowNs) ∧
      Mirrors ((transport.setProtocol conn later).onPeerAuthenticated conn pubkeyHex addr nowNs) := by
  have keeps : Keeps transport (transport.setProtocol conn later) :=
    setProtocol_keeps here fun before => ⟨authenticated, key.trans (same before).symm⟩
  have bound : conn < transport.protocols.length := (List.getElem?_eq_some_iff.mp here).1
  have there : (transport.setProtocol conn later).protocols[conn]? = some later := by
    rw [setProtocol, List.getElem?_set_self bound]
  constructor
  · apply StepLaw.of_entries
    · rw [onPeerAuthenticated_protocols]
      exact keeps.settled
    · exact fun pk entry => onPeerAuthenticated_entries conn pubkeyHex pk addr nowNs entry
  · exact onPeerAuthenticated_mirrors (keeps.mirrors mirrors) there authenticated key addr nowNs

/-- Whatever a frame does, it is lawful if it settles no other key. -/
theorem handled_law (mirrors : Mirrors transport) {conn : Nat} {later : GyzaProtocol}
    {actions : List Action} (here : transport.protocols[conn]? = some protocol)
    (handled : Handled identity protocol msg later actions)
    (same : ∀ pubkeyHex, protocol.authenticated = true → Proves identity protocol msg pubkeyHex →
      protocol.remotePubkey = some pubkeyHex) (addr : String × Int) (nowNs : Int) :
    StepLaw transport (actions.foldl (act conn later addr nowNs) (transport.setProtocol conn later)) ∧
      Mirrors (actions.foldl (act conn later addr nowNs) (transport.setProtocol conn later)) := by
  cases handled with
  | refused =>
      have keeps : Keeps transport (transport.setProtocol conn { protocol with closed := true }) :=
        setProtocol_keeps here fun before => ⟨before, rfl⟩
      exact ⟨keeps.stepLaw rfl, keeps.mirrors mirrors⟩
  | challenged pubkeyHex pk theirNonce hello responder =>
      have keeps : Keeps transport (transport.setProtocol conn { protocol with
          remotePubkeyPending := some pubkeyHex }) :=
        setProtocol_keeps here fun before => ⟨before, rfl⟩
      exact ⟨keeps.stepLaw rfl, keeps.mirrors mirrors⟩
  | proved pubkeyHex responseHex pk theirNonce hello initiator given verified =>
      have proves : Proves identity protocol msg pubkeyHex :=
        ⟨pk, responseHex, given, hello.decoded, verified, Or.inl ⟨initiator, theirNonce, hello⟩⟩
      exact authenticate_law mirrors here (fun before => same pubkeyHex before proves) rfl rfl addr nowNs
  | acknowledged pending responseHex pk isAck responder stored decoded given verified =>
      have proves : Proves identity protocol msg pending :=
        ⟨pk, responseHex, given, decoded, verified, Or.inr ⟨responder, isAck, stored⟩⟩
      exact authenticate_law mirrors here (fun before => same pending before proves) rfl rfl addr nowNs
  | app authenticated notHello notAck =>
      have keeps : Keeps transport ((transport.setProtocol conn protocol).touchPeer
          protocol.remotePubkey false true nowNs) :=
        (setProtocol_keeps here fun before => ⟨before, rfl⟩).trans (touchPeer_keeps _ _ _ _)
      refine ⟨keeps.stepLaw ?_, keeps.mirrors mirrors⟩
      exact touchPeer_peers _ _ _ _

/-- A frame on an authenticated connection is lawful exactly when it proves no other key. -/
theorem frame_iff (mirrors : Mirrors transport) (conn : Nat) (msg : Fields) (addr : String × Int)
    (nowNs : Int) :
    StepLaw transport (step identity transport (.frame conn msg addr nowNs)) ∧
        Mirrors (step identity transport (.frame conn msg addr nowNs)) ↔
      Allowed identity transport (.frame conn msg addr nowNs) := by
  constructor
  · rintro ⟨law, -⟩ protocol pubkeyHex here authenticated proves
    obtain ⟨later, there, -, key⟩ := law.settled conn protocol here authenticated
    have bound : conn < transport.protocols.length := (List.getElem?_eq_some_iff.mp here).1
    have settled : (step identity transport (.frame conn msg addr nowNs)).protocols[conn]? =
        some (handleFrame identity protocol msg).1 := by
      rw [step, receive, here]
      dsimp only
      rw [act_protocols, setProtocol, List.getElem?_set_self bound]
    rw [settled] at there
    cases there
    rw [← key, proves.key]
  · intro allowed
    cases here : transport.protocols[conn]? with
    | none =>
        have nothing : step identity transport (.frame conn msg addr nowNs) = transport := by
          rw [step, receive, here]
        rw [nothing]
        exact ⟨Keeps.refl.stepLaw rfl, mirrors⟩
    | some protocol =>
        have handled := @handleFrame_handled _ identity protocol msg
        have law := handled_law mirrors here handled
          (fun pubkeyHex before => allowed protocol pubkeyHex here before) addr nowNs
        rw [step, receive, here]
        exact law

end Frames

/-! The other steps. -/

section Others

variable {crypto : Crypto} {identity : LocalCompositor crypto} {transport : GyzaTransport}

/-- A step that keeps everything is lawful. -/
theorem lawful_of_keeps {after : GyzaTransport} (keeps : Keeps transport after)
    (same : after.peers = transport.peers) (mirrors : Mirrors transport) {allowed : Prop}
    (free : allowed) : StepLaw transport after ∧ Mirrors after ↔ allowed :=
  iff_of_true ⟨keeps.stepLaw same, keeps.mirrors mirrors⟩ free

theorem opened_keeps (protocol : GyzaProtocol) :
    Keeps transport { transport with protocols := transport.protocols ++ [protocol] } := by
  refine ⟨?_, records_refl, fun _ _ => id⟩
  intro conn old here authenticated
  have bound : conn < transport.protocols.length := (List.getElem?_eq_some_iff.mp here).1
  exact ⟨old, by rw [List.getElem?_append_left bound, here], authenticated, rfl⟩

theorem finishConnect_keeps (conn : Nat) (addr : String × Int) :
    Keeps transport (transport.finishConnect conn addr) ∧
      (transport.finishConnect conn addr).peers = transport.peers := by
  unfold finishConnect
  split
  · exact ⟨Keeps.refl, rfl⟩
  · split
    · split
      · exact ⟨⟨settled_refl, records_refl, fun _ _ => id⟩, rfl⟩
      · split_ifs
        · exact ⟨Keeps.refl, rfl⟩
        · refine ⟨⟨settled_refl, ?_, fun _ _ => id⟩, rfl⟩
          intro record peer held
          refine records_modify ?_ held
          exact fun _ => ⟨rfl, rfl⟩
    · exact ⟨Keeps.refl, rfl⟩

theorem noteSent_keeps (conn : Nat) (nowNs : Int) :
    Keeps transport (transport.noteSent conn nowNs) ∧
      (transport.noteSent conn nowNs).peers = transport.peers := by
  unfold noteSent
  split
  · exact ⟨Keeps.refl, rfl⟩
  · split_ifs
    · exact ⟨Keeps.refl, rfl⟩
    · exact ⟨touchPeer_keeps _ _ _ _, touchPeer_peers _ _ _ _⟩

theorem heartbeat_keeps : Keeps transport { transport with sweep := transport.peers.rows } :=
  ⟨settled_refl, records_refl, fun _ _ => id⟩

theorem terminated_iff (mirrors : Mirrors transport) (conn : Nat) :
    StepLaw transport (step identity transport (.terminated conn)) ∧
        Mirrors (step identity transport (.terminated conn)) ↔
      Allowed identity transport (.terminated conn) := by
  cases key : (transport.protocols[conn]?).bind GyzaProtocol.remotePubkey with
  | none =>
      have result : step identity transport (.terminated conn) = transport.closeConnection conn := by
        rw [step, key]
      rw [result]
      refine lawful_of_keeps (closeConnection_keeps conn) rfl mirrors ?_
      intro protocol pk here known
      rw [here, Option.bind_some, known] at key
      cases key
  | some pk =>
      have result : step identity transport (.terminated conn) =
          (transport.closeConnection conn).onPeerDisconnected pk := by
        rw [step, key]
      have keeps := (@closeConnection_keeps transport conn).trans (onPeerDisconnected_keeps pk)
      rw [result, and_iff_left (keeps.mirrors mirrors), removal_iff mirrors]
      obtain ⟨protocol, here, known⟩ := Option.bind_eq_some_iff.mp key
      constructor
      · intro own protocol' pk' here' known'
        rw [here] at here'
        cases here'
        rw [known] at known'
        cases known'
        exact own
      · exact fun allowed => allowed protocol pk here known

theorem sweepNext_iff (mirrors : Mirrors transport) (nowNs timeoutNs : Int) :
    StepLaw transport (step identity transport (.sweepNext nowNs timeoutNs)) ∧
        Mirrors (step identity transport (.sweepNext nowNs timeoutNs)) ↔
      Allowed identity transport (.sweepNext nowNs timeoutNs) := by
  have skipped : ∀ rest, Keeps transport { transport with sweep := rest } :=
    fun rest => ⟨settled_refl, records_refl, fun _ _ => id⟩
  show StepLaw transport (transport.sweepStep nowNs timeoutNs) ∧
    Mirrors (transport.sweepStep nowNs timeoutNs) ↔ _
  unfold sweepStep
  split
  · rename_i empty
    refine lawful_of_keeps Keeps.refl rfl mirrors ?_
    intro pk record rest peer next
    rw [empty] at next
    cases next
  · rename_i pk record rest next
    split
    · rename_i missing
      refine lawful_of_keeps (skipped rest) rfl mirrors ?_
      intro pk' record' rest' peer next' held
      rw [next] at next'
      cases next'
      rw [missing] at held
      cases held
    · rename_i peer held
      have only : Allowed identity transport (.sweepNext nowNs timeoutNs) ↔
          (timeoutNs < nowNs - peer.lastSeenNs → transport.OwnEntry pk peer.protocol) := by
        constructor
        · exact fun allowed => allowed pk record rest peer next held
        · intro own pk' record' rest' peer' next' held'
          rw [next] at next'
          cases next'
          rw [held] at held'
          cases held'
          exact own
      rw [only]
      split_ifs with lost
      · have keeps := (skipped rest).trans ((closeConnection_keeps peer.protocol).trans
          (onPeerDisconnected_keeps pk))
        have law := @removal_iff { transport with sweep := rest } ((skipped rest).mirrors mirrors)
          peer.protocol pk
        rw [and_iff_left (keeps.mirrors mirrors)]
        constructor
        · intro lawful _
          exact law.mp ⟨lawful.settled, lawful.entries⟩
        · intro own
          have lawful := law.mpr (own lost)
          exact ⟨lawful.settled, lawful.entries⟩
      · exact lawful_of_keeps (skipped rest) rfl mirrors fun timed => absurd timed lost

/-- Where the table mirrors the connections, a step is lawful and keeps it so exactly when
it is allowed. -/
theorem step_lawful_iff (transport : GyzaTransport) (event : Event) (mirrors : Mirrors transport) :
    StepLaw transport (step identity transport event) ∧ Mirrors (step identity transport event) ↔
      Allowed identity transport event := by
  cases event with
  | opened isInitiator ourNonce => exact lawful_of_keeps (opened_keeps _) rfl mirrors trivial
  | frame conn msg addr nowNs => exact frame_iff mirrors conn msg addr nowNs
  | broken conn => exact lawful_of_keeps (closeConnection_keeps conn) rfl mirrors trivial
  | terminated conn => exact terminated_iff mirrors conn
  | connected conn addr =>
      exact lawful_of_keeps (finishConnect_keeps conn addr).1 (finishConnect_keeps conn addr).2 mirrors
        trivial
  | sent conn nowNs =>
      exact lawful_of_keeps (noteSent_keeps conn nowNs).1 (noteSent_keeps conn nowNs).2 mirrors trivial
  | heartbeat => exact lawful_of_keeps heartbeat_keeps rfl mirrors trivial
  | sweepNext nowNs timeoutNs => exact sweepNext_iff mirrors nowNs timeoutNs

end Others

end GyzaTransport

open GyzaTransport

/-- In a run of a transport the table mirrors the connections and every step is lawful
exactly when every step is allowed. -/
theorem peer_table_mirrors_iff {crypto : Crypto} (identity : LocalCompositor crypto)
    (events : List GyzaTransport.Event) :
    (∀ front event back, events = front ++ event :: back →
      StepLaw (Run.run (GyzaTransport.step identity) fresh front)
          (GyzaTransport.step identity (Run.run (GyzaTransport.step identity) fresh front) event) ∧
        Mirrors (Run.run (GyzaTransport.step identity) fresh (front ++ [event]))) ↔
      Run.Admissible (GyzaTransport.step identity) (Allowed identity) fresh events := by
  apply Run.fine_iff_admissible (GyzaTransport.step identity) (Allowed identity)
    (fun before event => StepLaw before (GyzaTransport.step identity before event)) Mirrors
  · exact step_lawful_iff
  · intro pk record entry
    simp [fresh, Dict.lookup, Dict.empty, Table.get?, Table.empty] at entry

namespace Sample

def transportNonce : { nonce : Bytes // nonce.length = 32 } := ⟨List.replicate 32 9, rfl⟩

/-- A responder's hello that signs the nonce. -/
def answeringHello (seed : UInt8) : Fields :=
  [("type", .str "hello"), ("pubkey", .str (compositor seed).pubkeyHex),
    ("nonce", .str (Hex.encode (List.replicate 32 8))),
    ("response", .str ((compositor seed).sign transportNonce.1))]

/-- The answer is accepted. -/
theorem answeringHello_handled {protocol : GyzaProtocol} (initiator : protocol.isInitiator = true)
    (asked : protocol.ourNonce = transportNonce.1) {seed : UInt8} (other : seed ≠ 1) :
    handleFrame (compositor 1) protocol (answeringHello seed) =
      ({ protocol with remotePubkey := some (compositor seed).pubkeyHex, authenticated := true },
        [.sendFrame (GyzaProtocol.helloAckFrame (compositor 1)
          ((compositor 1).sign (List.replicate 32 8))),
          .peerAuthenticated (compositor seed).pubkeyHex]) := by
  have hello : GyzaProtocol.HelloFrom (compositor 1) (answeringHello seed) (compositor seed).pubkeyHex
      (compositor seed).publicBytes (List.replicate 32 8) := by
    refine ⟨rfl, rfl, Hex.fromhex_encode _, (compositor seed).publicBytes_length,
      ⟨_, rfl, Hex.fromhex_encode _⟩, rfl, ?_⟩
    intro same
    have bytes := Hex.encode_injective same
    simp only [compositor, List.replicate_succ, List.cons.injEq] at bytes
    exact other bytes.1
  have verified : GyzaProtocol.responseVerifies crypto (compositor seed).publicBytes
      ((compositor seed).sign transportNonce.1) protocol.ourNonce = true := by
    rw [GyzaProtocol.responseVerifies, LocalCompositor.sign, Hex.fromhex_encode, asked]
    simp [(compositor seed).publicBytes_length, (compositor seed).signBytes_verifies]
  rw [handleFrame_typed hello.isHello]
  exact GyzaProtocol.dispatch_proved (compositor 1) hello initiator rfl verified

/-- Two answers on one connection, under different keys. -/
def rehandshake : List GyzaTransport.Event :=
  [.opened true transportNonce, .frame 0 (answeringHello 2) ("10.0.0.2", 7749) 10,
    .frame 0 (answeringHello 3) ("10.0.0.2", 7749) 20]

/-- Two connections to one peer. -/
def duplicates : List GyzaTransport.Event :=
  [.opened true transportNonce, .opened true transportNonce,
    .frame 0 (answeringHello 2) ("10.0.0.2", 7749) 10,
    .frame 1 (answeringHello 2) ("10.0.0.2", 7750) 20]

theorem empty_lookup (pk : String) : (Dict.empty : Dict String Nat).lookup pk = none := rfl

/-- An initiator's protocol that has got the answer of a key. -/
def answered (seed : UInt8) : GyzaProtocol where
  isInitiator := true
  ourNonce := transportNonce.1
  ourNonce_length := transportNonce.2
  authenticated := true
  remotePubkey := some (compositor seed).pubkeyHex

theorem rehandshake_run : Run.run (GyzaTransport.step (compositor 1)) fresh rehandshake =
    { fresh with
      protocols := [answered 3]
      records := [⟨(compositor 2).pubkeyHex, ("10.0.0.2", 7749), 10, 10, 0, 0, 0⟩,
        ⟨(compositor 3).pubkeyHex, ("10.0.0.2", 7749), 20, 20, 0, 0, 0⟩]
      peers := (Dict.empty.set (compositor 2).pubkeyHex 0).set (compositor 3).pubkeyHex 1 } := by
  have keys : (compositor 2).pubkeyHex ≠ (compositor 3).pubkeyHex := by decide +kernel
  simp [Run.run, rehandshake, GyzaTransport.step, GyzaTransport.receive, fresh, answeringHello_handled,
    setProtocol, act, onPeerAuthenticated, Dict.lookup_set, empty_lookup, keys, answered]

theorem duplicates_run : Run.run (GyzaTransport.step (compositor 1)) fresh duplicates =
    { fresh with
      protocols := [answered 2, answered 2]
      records := [⟨(compositor 2).pubkeyHex, ("10.0.0.2", 7750), 10, 20, 0, 0, 1⟩]
      peers := Dict.empty.set (compositor 2).pubkeyHex 0 } := by
  simp [Run.run, duplicates, GyzaTransport.step, GyzaTransport.receive, fresh, answeringHello_handled,
    setProtocol, act, onPeerAuthenticated, Dict.lookup_set, empty_lookup, answered]

end Sample

/-- A second hello leaves the first key's entry with a connection of another key, and of two
connections to a peer the end of the older removes the entry of the newer. -/
theorem peer_table_diverges :
    ¬Mirrors (Run.run (GyzaTransport.step (Sample.compositor 1)) fresh Sample.rehandshake) ∧
      ¬StepLaw (Run.run (GyzaTransport.step (Sample.compositor 1)) fresh Sample.duplicates)
        (GyzaTransport.step (Sample.compositor 1)
          (Run.run (GyzaTransport.step (Sample.compositor 1)) fresh Sample.duplicates)
          (.terminated 0)) := by
  have keys : (Sample.compositor 3).pubkeyHex ≠ (Sample.compositor 2).pubkeyHex := by decide +kernel
  constructor
  · rw [Sample.rehandshake_run]
    intro mirrors
    obtain ⟨peer, protocol, held, -, owned, -, key⟩ := mirrors (Sample.compositor 2).pubkeyHex 0
      (by simp [Dict.lookup_set, keys])
    cases held
    cases owned
    exact keys (Option.some.inj key)
  · rw [Sample.duplicates_run]
    intro law
    rcases law.entries (Sample.compositor 2).pubkeyHex 0 _ (Sample.answered 2)
      (by simp [Dict.lookup_set]) rfl rfl rfl rfl with still | ⟨later, there, ended⟩
    · exact still ((Dict.lookup_pop _ _ _).trans (if_pos rfl))
    · cases there
      cases ended

end Gyza

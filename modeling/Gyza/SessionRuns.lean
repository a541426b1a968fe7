import Gyza.Sessions
import Gyza.SigningOracle

/-! From whom the messages of a run come. -/

namespace Gyza.Sessions

open Hex (Bytes)
open PyValue (Fields Value dictGet)
open GyzaProtocol

section Statements

variable {Node : Type} {crypto : Crypto} (identity : Node → LocalCompositor crypto)

/-- No hello that the endpoint answers carries a nonce that a node drew for a connection
the attacker is on. -/
def RelaysNoChallenge (net : Net Node) (endpoint : Endpoint Node) (msg : Fields) : Prop :=
  ∀ nonce, SigningOracle.Answers (identity endpoint.node) endpoint.protocol msg nonce →
    ∀ tapped, Link.tapped tapped ∈ net.links → tapped.protocol.ourNonce ≠ nonce

/-- No message on an authenticated connection names a node as its sender. -/
def NamesNoNode (endpoint : Endpoint Node) (msg : Fields) : Prop :=
  endpoint.protocol.authenticated = true → dictGet msg "type" .none ≠ .str "hello" →
    dictGet msg "type" .none ≠ .str "hello_ack" →
      ∀ node, ¬Spells identity node (dictGet msg "sender" .none)

def Plain (net : Net Node) : Event Node → Prop
  | .inject k msg => ∀ endpoint, net.links[k]? = some (.tapped endpoint) →
      RelaysNoChallenge identity net endpoint msg ∧ NamesNoNode identity endpoint msg
  | _ => True

/-- What an endpoint sends to another node. -/
inductive SentTo (calls : List (Call Node)) (endpoint : Endpoint Node) (receiver : Node) :
    Fields → Prop where
  | hello (response : Option String) :
      SentTo calls endpoint receiver
        (helloFrame (identity endpoint.node) endpoint.protocol response)
  | ack (response : String) :
      SentTo calls endpoint receiver (helloAckFrame (identity endpoint.node) response)
  | app (msgType : String) (timestampNs : Int) (payload : Fields)
      (call : ⟨endpoint.node, some (identity receiver).pubkeyHex, msgType, payload⟩ ∈ calls) :
      SentTo calls endpoint receiver
        (appFrame (identity endpoint.node) msgType timestampNs payload)

/-- What one end of a direct link knows of the other. -/
structure Faces (calls : List (Call Node)) (sender receiver : Endpoint Node) : Prop where
  inbox : ∀ msg ∈ receiver.inbox, SentTo identity calls sender receiver.node msg
  pending : ∀ text ∈ receiver.protocol.remotePubkeyPending, text = (identity sender.node).pubkeyHex
  remote : ∀ text ∈ receiver.protocol.remotePubkey, text = (identity sender.node).pubkeyHex
  known : receiver.protocol.authenticated = true → receiver.protocol.remotePubkey ≠ none

/-- The attacker's end has proved no node's key. -/
def Foreign (endpoint : Endpoint Node) : Prop :=
  ∀ text ∈ endpoint.protocol.remotePubkey, ∀ node,
    Hex.fromhex text ≠ some (identity node).publicBytes

structure Sound (net : Net Node) : Prop where
  faces : ∀ initiator responder, Link.direct initiator responder ∈ net.links →
    Faces identity net.calls initiator responder ∧ Faces identity net.calls responder initiator
  foreign : ∀ endpoint, Link.tapped endpoint ∈ net.links → Foreign identity endpoint
  unsigned : ∀ endpoint, Link.tapped endpoint ∈ net.links → ∀ node,
    (node, endpoint.protocol.ourNonce) ∉ net.signed
  apart : ∀ endpoint, Link.tapped endpoint ∈ net.links → ∀ initiator responder,
    Link.direct initiator responder ∈ net.links →
      initiator.protocol.ourNonce ≠ endpoint.protocol.ourNonce ∧
        responder.protocol.ourNonce ≠ endpoint.protocol.ourNonce
  attributed : Attributed identity net

end Statements

variable {Node : Type} {crypto : Crypto} {identity : Node → LocalCompositor crypto}

theorem SentTo.mono {calls more : List (Call Node)} {endpoint : Endpoint Node} {receiver : Node}
    {msg : Fields} (sent : SentTo identity calls endpoint receiver msg) (grows : calls ⊆ more) :
    SentTo identity more endpoint receiver msg := by
  cases sent with
  | hello response => exact .hello response
  | ack response => exact .ack response
  | app msgType timestampNs payload call => exact .app msgType timestampNs payload (grows call)

/-- Only the node and the nonce of the sender matter. -/
theorem SentTo.of_same {calls : List (Call Node)} {endpoint other : Endpoint Node} {receiver : Node}
    {msg : Fields} (sent : SentTo identity calls endpoint receiver msg)
    (node : other.node = endpoint.node)
    (nonce : other.protocol.ourNonce = endpoint.protocol.ourNonce) :
    SentTo identity calls other receiver msg := by
  cases sent with
  | hello response =>
      have same : helloFrame (identity endpoint.node) endpoint.protocol response =
          helloFrame (identity other.node) other.protocol response := by
        rw [helloFrame, helloFrame, node, nonce]
      rw [same]
      exact .hello response
  | ack response =>
      rw [← node]
      exact .ack response
  | app msgType timestampNs payload call =>
      rw [← node] at call ⊢
      exact .app msgType timestampNs payload call

/-- A hello that an endpoint takes up from another node is that node's own hello. -/
theorem SentTo.hello_from {calls : List (Call Node)} {sender : Endpoint Node} {receiver : Node}
    {msg : Fields} (sent : SentTo identity calls sender receiver msg) {pubkeyHex : String}
    {pk theirNonce : Bytes}
    (hello : HelloFrom (identity receiver) msg pubkeyHex pk theirNonce) :
    pubkeyHex = (identity sender.node).pubkeyHex ∧ theirNonce = sender.protocol.ourNonce := by
  obtain ⟨isHello, named, _, _, ⟨nonceHex, given, carried⟩, _, _⟩ := hello
  cases sent with
  | hello response =>
      have own : Value.str (identity sender.node).pubkeyHex = .str pubkeyHex := named
      have challenge : Value.str (Hex.encode sender.protocol.ourNonce) = .str nonceHex := given
      cases own
      cases challenge
      rw [Hex.fromhex_encode] at carried
      exact ⟨rfl, (Option.some.inj carried).symm⟩
  | ack response =>
      have absurdType : Value.str "hello_ack" = .str "hello" := isHello
      simp at absurdType
  | app => cases named

theorem SentTo.app_from {calls : List (Call Node)} {sender : Endpoint Node} {receiver : Node}
    {msg : Fields} (sent : SentTo identity calls sender receiver msg)
    (notHello : dictGet msg "type" .none ≠ .str "hello")
    (notAck : dictGet msg "type" .none ≠ .str "hello_ack") :
    ∃ call ∈ calls, call.node = sender.node ∧
      call.remotePubkey = some (identity receiver).pubkeyHex ∧
      dictGet msg "type" .none = .str call.msgType ∧
      dictGet msg "sender" .none = .str (identity sender.node).pubkeyHex ∧
      payloadOf msg = call.payload := by
  cases sent with
  | hello response => exact absurd rfl notHello
  | ack response => exact absurd rfl notAck
  | app msgType timestampNs payload call => exact ⟨_, call, rfl, rfl, rfl, rfl, rfl⟩

/-! What handling one frame adds to the logs. -/

section Handling

variable {endpoint : Endpoint Node} {msg : Fields}

theorem ourNonce_dispatch (key : LocalCompositor crypto) (protocol : GyzaProtocol) (msg : Fields) :
    (dispatch key protocol msg).1.ourNonce = protocol.ourNonce := by
  have handled := dispatch_handled key protocol msg
  generalize dispatch key protocol msg = result at handled
  obtain ⟨after, actions⟩ := result
  dsimp only at handled ⊢
  cases handled <;> rfl

theorem frames_sentTo (calls : List (Call Node)) (receiver : Node) {frame : Fields}
    (sent : frame ∈ framesOf (dispatch (identity endpoint.node) endpoint.protocol msg).2) :
    SentTo identity calls endpoint receiver frame := by
  have handled := dispatch_handled (identity endpoint.node) endpoint.protocol msg
  generalize dispatch (identity endpoint.node) endpoint.protocol msg = result at handled sent
  obtain ⟨after, actions⟩ := result
  dsimp only at handled sent
  cases handled with
  | proved =>
      cases List.mem_singleton.mp sent
      exact .ack _
  | challenged =>
      cases List.mem_singleton.mp sent
      exact .hello _
  | refused => cases sent
  | acknowledged => cases sent
  | app => cases sent

theorem answers_of_signedBy {node : Node} {nonce : Bytes}
    (signed : (node, nonce) ∈ signedBy endpoint.node msg
      (dispatch (identity endpoint.node) endpoint.protocol msg).2) :
    SigningOracle.Answers (identity endpoint.node) endpoint.protocol msg nonce := by
  have handled := dispatch_handled (identity endpoint.node) endpoint.protocol msg
  generalize dispatch (identity endpoint.node) endpoint.protocol msg = result at handled signed
  obtain ⟨after, actions⟩ := result
  dsimp only at handled signed
  have carries : ∀ {pubkeyHex pk theirNonce frame},
      HelloFrom (identity endpoint.node) msg pubkeyHex pk theirNonce →
        (node, nonce) ∈ signedBy endpoint.node msg [.sendFrame frame] → theirNonce = nonce := by
    intro pubkeyHex pk theirNonce frame hello member
    obtain ⟨nonceHex, given, carried⟩ := hello.carries
    simp [signedBy, framesOf, given, carried] at member
    exact member.2.symm
  cases handled with
  | proved pubkeyHex responseHex pk theirNonce hello _ given verified =>
      cases carries hello signed
      exact ⟨pubkeyHex, pk, hello, fun _ => ⟨responseHex, given, verified⟩⟩
  | challenged pubkeyHex pk theirNonce hello responder =>
      cases carries hello signed
      exact ⟨pubkeyHex, pk, hello, fun initiator => by simp [responder] at initiator⟩
  | refused => cases signed
  | acknowledged => cases signed
  | app => cases signed

/-- A dispatched message is the frame, on an authenticated connection. -/
theorem dispatched_app {message : Dispatched Node}
    (dispatched : message ∈ dispatchedBy endpoint.node
      (dispatch (identity endpoint.node) endpoint.protocol msg).2) :
    endpoint.protocol.authenticated = true ∧ dictGet msg "type" .none ≠ .str "hello" ∧
      dictGet msg "type" .none ≠ .str "hello_ack" ∧
      message = ⟨endpoint.node, dictGet msg "type" .none, endpoint.protocol.senderOf msg,
        payloadOf msg⟩ := by
  have handled := dispatch_handled (identity endpoint.node) endpoint.protocol msg
  generalize dispatch (identity endpoint.node) endpoint.protocol msg = result at handled dispatched
  obtain ⟨after, actions⟩ := result
  dsimp only at handled dispatched
  cases handled with
  | app authenticated notHello notAck =>
      exact ⟨authenticated, notHello, notAck, List.mem_singleton.mp dispatched⟩
  | refused => cases dispatched
  | proved => cases dispatched
  | challenged => cases dispatched
  | acknowledged => cases dispatched

end Handling

/-! Direct links. -/

section Direct

variable {calls : List (Call Node)} {sender receiver : Endpoint Node}

theorem Faces.mono {more : List (Call Node)} (faces : Faces identity calls sender receiver)
    (grows : calls ⊆ more) : Faces identity more sender receiver :=
  ⟨fun msg waiting => (faces.inbox msg waiting).mono grows, faces.pending, faces.remote, faces.known⟩

/-- A new state of the sender's end, by the same node under the same nonce. -/
theorem Faces.of_same (faces : Faces identity calls sender receiver) {other : Endpoint Node}
    (node : other.node = sender.node)
    (nonce : other.protocol.ourNonce = sender.protocol.ourNonce) :
    Faces identity calls other receiver := by
  refine ⟨fun msg waiting => (faces.inbox msg waiting).of_same node nonce, ?_, ?_, faces.known⟩
  · rw [node]
    exact faces.pending
  · rw [node]
    exact faces.remote

theorem Faces.post (faces : Faces identity calls sender receiver) {actions : List Action}
    (sent : ∀ frame ∈ framesOf actions, SentTo identity calls sender receiver.node frame) :
    Faces identity calls sender (receiver.post actions) := by
  refine ⟨?_, faces.pending, faces.remote, faces.known⟩
  intro frame waiting
  rcases List.mem_append.mp waiting with before | new
  · exact faces.inbox frame before
  · exact sent frame new

/-- The receiver handles a frame of the sender: only the sender's key is ever proven. -/
theorem Faces.dispatch (faces : Faces identity calls sender receiver) {msg : Fields}
    {rest : List Fields} (next : receiver.inbox = msg :: rest) :
    Faces identity calls sender { receiver with
      inbox := rest
      protocol := (dispatch (identity receiver.node) receiver.protocol msg).1 } := by
  have sent := faces.inbox msg (by simp [next])
  have waiting : ∀ frame ∈ rest, SentTo identity calls sender receiver.node frame := by
    intro frame member
    exact faces.inbox frame (by simp [next, member])
  have handled := dispatch_handled (identity receiver.node) receiver.protocol msg
  generalize GyzaProtocol.dispatch (identity receiver.node) receiver.protocol msg = result at handled
  obtain ⟨after, actions⟩ := result
  dsimp only at handled ⊢
  cases handled with
  | refused => exact ⟨waiting, faces.pending, faces.remote, faces.known⟩
  | proved pubkeyHex responseHex pk theirNonce hello =>
      refine ⟨waiting, faces.pending, ?_, by simp⟩
      rintro text ⟨rfl⟩
      exact (sent.hello_from hello).1
  | challenged pubkeyHex pk theirNonce hello =>
      refine ⟨waiting, ?_, faces.remote, faces.known⟩
      rintro text ⟨rfl⟩
      exact (sent.hello_from hello).1
  | acknowledged pending responseHex pk _ _ stored =>
      refine ⟨waiting, faces.pending, ?_, by simp⟩
      rintro text ⟨rfl⟩
      exact faces.pending _ stored
  | app => exact ⟨waiting, faces.pending, faces.remote, faces.known⟩

/-- A node's own messages are dispatched under its key. -/
theorem SentTo.attributed {msg : Fields} (sent : SentTo identity calls sender receiver.node msg)
    {message : Dispatched Node}
    (dispatched : message ∈ dispatchedBy receiver.node
      (GyzaProtocol.dispatch (identity receiver.node) receiver.protocol msg).2) :
    SentByNamed identity calls message := by
  intro node spells
  obtain ⟨_, notHello, notAck, rfl⟩ := dispatched_app dispatched
  obtain ⟨call, made, own, remote, msgType, named, payload⟩ := sent.app_from notHello notAck
  refine ⟨call, made, ?_, remote, msgType, payload⟩
  have truthy : (dictGet msg "sender" .none).truthy = true := by
    rw [named]
    simpa [Value.truthy] using (identity sender.node).pubkeyHex_ne_empty
  obtain ⟨text, spelled, decoded⟩ := spells
  dsimp only [senderOf] at spelled
  rw [if_pos truthy, named] at spelled
  cases spelled
  rw [LocalCompositor.pubkeyHex, Hex.fromhex_encode] at decoded
  rw [own]
  exact Option.some.inj decoded

end Direct

/-! The attacker's links. -/

section Tapped

variable {net : Net Node} {endpoint : Endpoint Node} {msg : Fields}

/-- A key whose node never signed the challenge is not proven. -/
theorem Foreign.dispatch (foreign : Foreign identity endpoint)
    (unforged : Unforged identity net endpoint msg)
    (unsigned : ∀ node, (node, endpoint.protocol.ourNonce) ∉ net.signed) :
    Foreign identity { endpoint with
      protocol := (dispatch (identity endpoint.node) endpoint.protocol msg).1 } := by
  have unproven : ∀ text responseHex pk, Hex.fromhex text = some pk →
      dictGet msg "response" .none = .str responseHex →
      responseVerifies crypto pk responseHex endpoint.protocol.ourNonce = true →
        ∀ node, Hex.fromhex text ≠ some (identity node).publicBytes := by
    intro text responseHex pk decoded given verified node same
    cases decoded.symm.trans same
    exact unsigned node (unforged node responseHex given verified)
  have handled := dispatch_handled (identity endpoint.node) endpoint.protocol msg
  generalize GyzaProtocol.dispatch (identity endpoint.node) endpoint.protocol msg = result at handled
  obtain ⟨after, actions⟩ := result
  dsimp only at handled ⊢
  cases handled with
  | refused => exact foreign
  | proved pubkeyHex responseHex pk theirNonce hello _ given verified =>
      rintro text ⟨rfl⟩
      exact unproven _ responseHex pk hello.decoded given verified
  | challenged => exact foreign
  | acknowledged pending responseHex pk _ _ _ decoded given verified =>
      rintro text ⟨rfl⟩
      exact unproven _ responseHex pk decoded given verified
  | app => exact foreign

theorem Foreign.not_spells (foreign : Foreign identity endpoint)
    (unnamed : NamesNoNode identity endpoint msg) {message : Dispatched Node}
    (dispatched : message ∈ dispatchedBy endpoint.node
      (GyzaProtocol.dispatch (identity endpoint.node) endpoint.protocol msg).2)
    (node : Node) : ¬Spells identity node message.sender := by
  intro spells
  obtain ⟨authenticated, notHello, notAck, rfl⟩ := dispatched_app dispatched
  dsimp only [senderOf] at spells
  split_ifs at spells with given
  · exact unnamed authenticated notHello notAck node spells
  · obtain ⟨text, remote, decoded⟩ := spells
    cases proven : endpoint.protocol.remotePubkey with
    | none => simp [proven] at remote
    | some key =>
        rw [proven] at remote
        cases remote
        exact foreign _ proven node decoded

end Tapped

/-! Whole nets. -/

section Nets

variable {net after : Net Node} {k : Nat}

/-- What a node signs on behalf of a direct link is no challenge to the attacker. -/
def SignsHarmless (net after : Net Node) : Prop :=
  ∀ node nonce, (node, nonce) ∈ after.signed → (node, nonce) ∈ net.signed ∨
    ∀ tapped, Link.tapped tapped ∈ net.links → tapped.protocol.ourNonce ≠ nonce

theorem Sound.set_direct (sound : Sound identity net) {initiator responder : Endpoint Node}
    (found : net.links[k]? = some (.direct initiator responder)) {initiator' responder' : Endpoint Node}
    (links : after.links = net.links.set k (.direct initiator' responder'))
    (first : initiator'.protocol.ourNonce = initiator.protocol.ourNonce)
    (second : responder'.protocol.ourNonce = responder.protocol.ourNonce)
    (faces : Faces identity after.calls initiator' responder' ∧
      Faces identity after.calls responder' initiator')
    (grows : net.calls ⊆ after.calls) (harmless : SignsHarmless net after)
    (attributed : Attributed identity after) : Sound identity after := by
  have present := List.mem_of_getElem? found
  have direct : ∀ left right, Link.direct left right ∈ after.links →
      Link.direct left right ∈ net.links ∨ left = initiator' ∧ right = responder' := by
    intro left right member
    rw [links] at member
    rcases List.mem_or_eq_of_mem_set member with old | new
    · exact Or.inl old
    · cases new
      exact Or.inr ⟨rfl, rfl⟩
  have tapped : ∀ endpoint, Link.tapped endpoint ∈ after.links → Link.tapped endpoint ∈ net.links := by
    intro endpoint member
    rw [links] at member
    rcases List.mem_or_eq_of_mem_set member with old | new
    · exact old
    · cases new
  refine ⟨?_, fun endpoint member => sound.foreign endpoint (tapped endpoint member), ?_, ?_, attributed⟩
  · intro left right member
    rcases direct left right member with old | ⟨rfl, rfl⟩
    · have before := sound.faces left right old
      exact ⟨before.1.mono grows, before.2.mono grows⟩
    · exact faces
  · intro endpoint member node signed
    rcases harmless node _ signed with before | other
    · exact sound.unsigned endpoint (tapped endpoint member) node before
    · exact other endpoint (tapped endpoint member) rfl
  · intro endpoint member left right pair
    rcases direct left right pair with old | ⟨rfl, rfl⟩
    · exact sound.apart endpoint (tapped endpoint member) left right old
    · rw [first, second]
      exact sound.apart endpoint (tapped endpoint member) initiator responder present

theorem Sound.set_tapped (sound : Sound identity net) {endpoint endpoint' : Endpoint Node}
    (found : net.links[k]? = some (.tapped endpoint))
    (links : after.links = net.links.set k (.tapped endpoint'))
    (same : endpoint'.protocol.ourNonce = endpoint.protocol.ourNonce)
    (foreign : Foreign identity endpoint') (grows : net.calls ⊆ after.calls)
    (harmless : SignsHarmless net after) (attributed : Attributed identity after) :
    Sound identity after := by
  have present := List.mem_of_getElem? found
  have direct : ∀ left right, Link.direct left right ∈ after.links →
      Link.direct left right ∈ net.links := by
    intro left right member
    rw [links] at member
    rcases List.mem_or_eq_of_mem_set member with old | new
    · exact old
    · cases new
  have tapped : ∀ other, Link.tapped other ∈ after.links → ∃ before,
      Link.tapped before ∈ net.links ∧
        before.protocol.ourNonce = other.protocol.ourNonce ∧ Foreign identity other := by
    intro other member
    rw [links] at member
    rcases List.mem_or_eq_of_mem_set member with old | new
    · exact ⟨other, old, rfl, sound.foreign other old⟩
    · cases new
      exact ⟨endpoint, present, same.symm, foreign⟩
  refine ⟨?_, ?_, ?_, ?_, attributed⟩
  · intro left right member
    have before := sound.faces left right (direct left right member)
    exact ⟨before.1.mono grows, before.2.mono grows⟩
  · intro other member
    exact (tapped other member).choose_spec.2.2
  · intro other member node signed
    obtain ⟨before, old, nonce, _⟩ := tapped other member
    rw [← nonce] at signed
    rcases harmless node _ signed with earlier | unrelated
    · exact sound.unsigned before old node earlier
    · exact unrelated before old rfl
  · intro other member left right pair
    obtain ⟨before, old, nonce, _⟩ := tapped other member
    rw [← nonce]
    exact sound.apart before old left right (direct left right pair)

theorem SentByNamed.mono {calls more : List (Call Node)} {message : Dispatched Node}
    (sent : SentByNamed identity calls message) (grows : calls ⊆ more) :
    SentByNamed identity more message := by
  intro node spells
  obtain ⟨call, made, rest⟩ := sent node spells
  exact ⟨call, grows made, rest⟩

theorem Attributed.of_append {new : List (Dispatched Node)} (attributed : Attributed identity net)
    (dispatched : after.dispatched = net.dispatched ++ new) (grows : net.calls ⊆ after.calls)
    (sent : ∀ message ∈ new, SentByNamed identity net.calls message) :
    Attributed identity after := by
  intro message member
  rw [dispatched] at member
  rcases List.mem_append.mp member with old | added
  · exact (attributed message old).mono grows
  · exact (sent message added).mono grows

/-- A frame on a direct link, whichever end is the initiator. -/
theorem Sound.deliver (sound : Sound identity net) {sender receiver : Endpoint Node}
    (toward : Faces identity net.calls sender receiver)
    (back : Faces identity net.calls receiver sender)
    (hidden : ∀ tapped, Link.tapped tapped ∈ net.links →
      tapped.protocol.ourNonce ≠ sender.protocol.ourNonce)
    {link : Endpoint Node → Endpoint Node → Link Node}
    (update : ∀ after : Net Node, ∀ sender' receiver',
      after.links = net.links.set k (link sender' receiver') →
      sender'.protocol.ourNonce = sender.protocol.ourNonce →
      receiver'.protocol.ourNonce = receiver.protocol.ourNonce →
      Faces identity after.calls sender' receiver' → Faces identity after.calls receiver' sender' →
      net.calls ⊆ after.calls → SignsHarmless net after → Attributed identity after →
      Sound identity after) :
    Sound identity (net.deliver identity sender receiver link k) := by
  unfold Net.deliver
  cases next : receiver.inbox with
  | nil => exact sound
  | cons msg rest =>
      have sent := toward.inbox msg (by simp [next])
      have nonce := ourNonce_dispatch (identity receiver.node) receiver.protocol msg
      have answering : Faces identity net.calls { receiver with
          inbox := rest
          protocol := (dispatch (identity receiver.node) receiver.protocol msg).1 } sender :=
        back.of_same rfl nonce
      refine update _ _ _ rfl rfl nonce ?_ ?_ (List.Subset.refl _) ?_ ?_
      · exact (toward.dispatch next).of_same rfl rfl
      · refine answering.post ?_
        intro frame answered
        exact (frames_sentTo net.calls sender.node answered).of_same rfl nonce
      · intro node value signed
        rcases List.mem_append.mp signed with before | now
        · exact Or.inl before
        · obtain ⟨_, _, hello, _⟩ := answers_of_signedBy now
          right
          rw [(sent.hello_from hello).2]
          exact hidden
      · refine sound.attributed.of_append rfl (List.Subset.refl _) ?_
        intro message dispatched
        exact sent.attributed dispatched

theorem Sound.send (sound : Sound identity net) (fits : Fields → Bool)
    {sender receiver : Endpoint Node} (toward : Faces identity net.calls sender receiver)
    (back : Faces identity net.calls receiver sender)
    {link : Endpoint Node → Endpoint Node → Link Node}
    (update : ∀ after : Net Node, ∀ receiver',
      after.links = net.links.set k (link sender receiver') →
      receiver'.protocol.ourNonce = receiver.protocol.ourNonce →
      Faces identity after.calls sender receiver' → Faces identity after.calls receiver' sender →
      net.calls ⊆ after.calls → SignsHarmless net after → Attributed identity after →
      Sound identity after) (msgType : String) (timestampNs : Int) (payload : Fields) :
    Sound identity (net.send identity fits sender receiver link k msgType timestampNs payload) := by
  have grows : net.calls ⊆ net.calls ++ callsBy sender msgType payload
      (sends identity fits sender msgType timestampNs payload) :=
    List.subset_append_left _ _
  refine update _ _ rfl rfl ?_ ((back.mono grows).of_same rfl rfl) grows (fun _ _ => Or.inl) ?_
  · refine (toward.mono grows).post ?_
    intro frame sent
    unfold sends sendApp at sent ⊢
    split_ifs at sent ⊢ with unready tooLong
    · cases sent
    · cases sent
    · cases List.mem_singleton.mp sent
      push Not at unready
      have authenticated : sender.protocol.authenticated = true := by simpa using unready.1
      obtain ⟨remote, proven⟩ := Option.ne_none_iff_exists'.mp (back.known authenticated)
      refine .app msgType timestampNs payload (List.mem_append_right _ ?_)
      rw [← back.remote remote proven, ← proven]
      exact List.mem_singleton_self _
  · intro message member
    exact (sound.attributed message member).mono grows

theorem Sound.inject (sound : Sound identity net) {endpoint : Endpoint Node}
    (found : net.links[k]? = some (.tapped endpoint)) {msg : Fields}
    (unforged : Unforged identity net endpoint msg)
    (relays : RelaysNoChallenge identity net endpoint msg)
    (unnamed : NamesNoNode identity endpoint msg) (fits : Fields → Bool) :
    Sound identity (step identity fits net (.inject k msg)) := by
  have present := List.mem_of_getElem? found
  have foreign := sound.foreign endpoint present
  simp only [step, found]
  refine sound.set_tapped found rfl (ourNonce_dispatch _ _ msg)
    (foreign.dispatch unforged (sound.unsigned endpoint present)) (List.Subset.refl _) ?_ ?_
  · intro node nonce signed
    rcases List.mem_append.mp signed with before | now
    · exact Or.inl before
    · exact Or.inr (relays nonce (answers_of_signedBy now))
  · refine sound.attributed.of_append rfl (List.Subset.refl _) ?_
    intro message dispatched node spells
    exact absurd spells (foreign.not_spells unnamed dispatched node)

/-- Nobody has proven anything to a new endpoint. -/
theorem faces_new (calls : List (Call Node)) (sender : Endpoint Node) (node : Node)
    (isInitiator : Bool) (nonce : Nonce) :
    Faces identity calls sender (newEndpoint node isInitiator nonce) where
  inbox := by simp [newEndpoint]
  pending := by simp [newEndpoint]
  remote := by simp [newEndpoint]
  known := by simp [newEndpoint]

theorem Sound.join (sound : Sound identity net) (initiator responder : Node) {nonce nonce' : Nonce}
    (fresh : Fresh net nonce.1) (fresh' : Fresh net nonce'.1) (fits : Fields → Bool) :
    Sound identity (step identity fits net (.join initiator responder nonce nonce')) := by
  have tapped : ∀ endpoint, Link.tapped endpoint ∈ (step identity fits net
      (.join initiator responder nonce nonce')).links → Link.tapped endpoint ∈ net.links := by
    intro endpoint member
    rcases List.mem_append.mp member with old | new
    · exact old
    · cases List.mem_singleton.mp new
  refine ⟨?_, fun endpoint member => sound.foreign endpoint (tapped endpoint member),
    fun endpoint member => sound.unsigned endpoint (tapped endpoint member), ?_, sound.attributed⟩
  · intro left right member
    rcases List.mem_append.mp member with old | new
    · exact sound.faces left right old
    · cases List.mem_singleton.mp new
      refine ⟨(faces_new _ _ responder false nonce').post ?_, faces_new _ _ initiator true nonce⟩
      intro frame opening
      cases List.mem_singleton.mp opening
      exact .hello none
  · intro endpoint member left right pair
    have old := tapped endpoint member
    rcases List.mem_append.mp pair with before | new
    · exact sound.apart endpoint old left right before
    · cases List.mem_singleton.mp new
      exact ⟨(fresh.unused _ old endpoint (by simp [Link.endpoints])).symm,
        (fresh'.unused _ old endpoint (by simp [Link.endpoints])).symm⟩

theorem Sound.tap (sound : Sound identity net) (node : Node) (isInitiator : Bool) {nonce : Nonce}
    (fresh : Fresh net nonce.1) (fits : Fields → Bool) :
    Sound identity (step identity fits net (.tap node isInitiator nonce)) := by
  have direct : ∀ left right, Link.direct left right ∈ (step identity fits net
      (.tap node isInitiator nonce)).links → Link.direct left right ∈ net.links := by
    intro left right member
    rcases List.mem_append.mp member with old | new
    · exact old
    · cases List.mem_singleton.mp new
  refine ⟨fun left right member => sound.faces left right (direct left right member), ?_, ?_, ?_,
    sound.attributed⟩
  · intro endpoint member
    rcases List.mem_append.mp member with old | new
    · exact sound.foreign endpoint old
    · cases List.mem_singleton.mp new
      intro text proven
      cases proven
  · intro endpoint member other signed
    rcases List.mem_append.mp member with old | new
    · exact sound.unsigned endpoint old other signed
    · cases List.mem_singleton.mp new
      exact fresh.unsigned other signed
  · intro endpoint member left right pair
    have before := direct left right pair
    rcases List.mem_append.mp member with old | new
    · exact sound.apart endpoint old left right before
    · cases List.mem_singleton.mp new
      exact ⟨fresh.unused _ before left (by simp [Link.endpoints]),
        fresh.unused _ before right (by simp [Link.endpoints])⟩

theorem Sound.step (sound : Sound identity net) (fits : Fields → Bool) {event : Event Node}
    (possible : Possible identity net event) (plain : Plain identity net event) :
    Sound identity (step identity fits net event) := by
  cases event with
  | join initiator responder nonce nonce' =>
      exact sound.join initiator responder possible.1 possible.2.1 fits
  | tap node isInitiator nonce => exact sound.tap node isInitiator possible fits
  | inject k msg =>
      cases found : net.links[k]? with
      | none =>
          simp only [Sessions.step, found]
          exact sound
      | some link =>
          cases link with
          | direct initiator responder =>
              simp only [Sessions.step, found]
              exact sound
          | tapped endpoint =>
              obtain ⟨relays, unnamed⟩ := plain endpoint found
              exact sound.inject found (possible endpoint found) relays unnamed fits
  | deliver k toInitiator =>
      cases found : net.links[k]? with
      | none =>
          simp only [Sessions.step, found]
          exact sound
      | some link =>
          cases link with
          | tapped endpoint =>
              simp only [Sessions.step, found]
              exact sound
          | direct initiator responder =>
              have present := List.mem_of_getElem? found
              obtain ⟨outward, inward⟩ := sound.faces initiator responder present
              simp only [Sessions.step, found]
              split_ifs
              · refine sound.deliver inward outward
                  (fun endpoint tapped => (sound.apart endpoint tapped _ _ present).2.symm) ?_
                intro after sender' receiver' links same same' faces faces'
                exact sound.set_direct found links same' same ⟨faces', faces⟩
              · refine sound.deliver outward inward
                  (fun endpoint tapped => (sound.apart endpoint tapped _ _ present).1.symm) ?_
                intro after sender' receiver' links same same' faces faces'
                exact sound.set_direct found links same same' ⟨faces, faces'⟩
  | sendApp k byInitiator msgType timestampNs payload =>
      cases found : net.links[k]? with
      | none =>
          simp only [Sessions.step, found]
          exact sound
      | some link =>
          cases link with
          | tapped endpoint =>
              have grows := List.subset_append_left net.calls (callsBy endpoint msgType payload
                (sends identity fits endpoint msgType timestampNs payload))
              have unmoved : net.links = net.links.set k (.tapped endpoint) := by
                obtain ⟨inside, same⟩ := List.getElem?_eq_some_iff.mp found
                rw [← same, List.set_getElem_self]
              simp only [Sessions.step, found]
              refine sound.set_tapped found unmoved rfl
                (sound.foreign endpoint (List.mem_of_getElem? found)) grows (fun _ _ => Or.inl) ?_
              intro message member
              exact (sound.attributed message member).mono grows
          | direct initiator responder =>
              obtain ⟨outward, inward⟩ := sound.faces initiator responder (List.mem_of_getElem? found)
              simp only [Sessions.step, found]
              split_ifs
              · refine sound.send fits outward inward ?_ msgType timestampNs payload
                intro after responder' links same faces faces'
                exact sound.set_direct found links rfl same ⟨faces, faces'⟩
              · refine sound.send fits inward outward ?_ msgType timestampNs payload
                intro after initiator' links same faces faces'
                exact sound.set_direct found links same rfl ⟨faces', faces⟩

theorem sound_start : Sound identity ({} : Net Node) where
  faces := by simp
  foreign := by simp
  unsigned := by simp
  apart := by simp
  attributed := by simp [Attributed]

end Nets

/-- In a run in which no challenge is relayed and the attacker's frames name no node, the
messages come from whom they name. -/
theorem messages_attributed {Node : Type} {crypto : Crypto}
    (identity : Node → LocalCompositor crypto) (fits : Fields → Bool) (events : List (Event Node))
    (possible : Run.Admissible (step identity fits) (Possible identity) {} events)
    (plain : Run.Admissible (step identity fits) (Plain identity) {} events)
    (front back : List (Event Node)) (split : events = front ++ back) :
    Attributed identity (Run.run (step identity fits) {} front) := by
  rw [split, Run.admissible_append] at possible plain
  exact (Run.invariant_run (step identity fits) _ (Sound identity)
    (fun _ _ sound allowed => sound.step fits allowed.1 allowed.2) {} front sound_start
    ((Run.admissible_and _ _ _).mpr ⟨possible.1, plain.1⟩)).attributed

end Gyza.Sessions

namespace Gyza.Sample

open Hex (Bytes)
open PyValue (Fields Value dictGet)
open Sessions

/-- Two honest nodes; the attacker has the key of seed 2. -/
def sessionIdentity (second : Bool) : LocalCompositor crypto :=
  if second then compositor 3 else compositor 1

theorem nonceOf_length (byte : UInt8) : (List.replicate 32 byte).length = 32 :=
  List.length_replicate

def nonceOf (byte : UInt8) : Nonce := ⟨List.replicate 32 byte, nonceOf_length byte⟩

/-- The second node joins the first and sends it a message. -/
def joinedRun : List (Event Bool) :=
  [.join true false (nonceOf 7) (nonceOf 8), .deliver 0 false, .deliver 0 true, .deliver 0 false,
    .sendApp 0 true "work" 1000 [("task", .str "t")], .deliver 0 false]

def helloOf (pubkeyHex : String) (nonce : Nonce) : Fields :=
  [("type", .str "hello"), ("pubkey", .str pubkeyHex), ("nonce", .str (Hex.encode nonce.1))]

def ackOf (response : String) : Fields :=
  [("type", .str "hello_ack"), ("response", .str response)]

/-- The attacker proves its own key and names the second node. -/
def namingRun : List (Event Bool) :=
  [.tap false false (nonceOf 7), .inject 0 (helloOf (compositor 2).pubkeyHex (nonceOf 9)),
    .inject 0 (ackOf ((compositor 2).sign (nonceOf 7).1)),
    .inject 0 [("type", .str "work"), ("sender", .str (sessionIdentity true).pubkeyHex)]]

/-- The attacker has the first node's challenge signed by the second. -/
def relayRun : List (Event Bool) :=
  [.tap false false (nonceOf 7), .tap true false (nonceOf 8),
    .inject 0 (helloOf (sessionIdentity true).pubkeyHex (nonceOf 9)),
    .inject 1 (helloOf (compositor 2).pubkeyHex (nonceOf 7)),
    .inject 0 (ackOf ((sessionIdentity true).sign (nonceOf 7).1)), .inject 0 [("type", .str "work")]]

def netAfter (events : List (Event Bool)) : Net Bool :=
  Run.run (step sessionIdentity (fun _ => true)) {} events

def senderTexts (net : Net Bool) : List String :=
  net.dispatched.filterMap fun message =>
    match message.sender with
    | .str text => some text
    | _ => none

/-- The sender is the second node, and neither node has sent anything. -/
theorem not_attributed {net : Net Bool}
    (outcome : (senderTexts net, net.calls.length) = ([(sessionIdentity true).pubkeyHex], 0)) :
    ¬Sessions.Attributed sessionIdentity net := by
  obtain ⟨named, silent⟩ := Prod.mk.inj outcome
  intro attributed
  have member : (sessionIdentity true).pubkeyHex ∈ senderTexts net := by simp [named]
  obtain ⟨message, dispatched, text⟩ := List.mem_filterMap.mp member
  have sender : message.sender = .str (sessionIdentity true).pubkeyHex := by
    split at text
    next other given => rw [given, Option.some.inj text]
    next => cases text
  obtain ⟨call, made, _⟩ := attributed message dispatched true
    ⟨_, sender, Hex.fromhex_encode _⟩
  rw [List.length_eq_zero_iff.mp silent] at made
  cases made

def freshIn (net : Net Bool) (nonce : Bytes) : Bool :=
  net.links.all (fun link => link.endpoints.all fun endpoint => endpoint.protocol.ourNonce ≠ nonce) &&
    [false, true].all fun node => (node, nonce) ∉ net.signed

def unforgedAt (net : Net Bool) (k : Nat) (msg : Fields) : Bool :=
  match net.links[k]?, dictGet msg "response" .none with
  | some (.tapped endpoint), .str responseHex =>
      [false, true].all fun node =>
        !GyzaProtocol.responseVerifies crypto (sessionIdentity node).publicBytes responseHex
          endpoint.protocol.ourNonce || (node, endpoint.protocol.ourNonce) ∈ net.signed
  | _, _ => true

def possibleNow (net : Net Bool) : Event Bool → Bool
  | .join _ _ nonce nonce' => freshIn net nonce.1 && freshIn net nonce'.1 && nonce ≠ nonce'
  | .tap _ _ nonce => freshIn net nonce.1
  | .inject k msg => unforgedAt net k msg
  | _ => true

def possibleRun : Net Bool → List (Event Bool) → Bool
  | _, [] => true
  | net, event :: rest =>
      possibleNow net event && possibleRun (step sessionIdentity (fun _ => true) net event) rest

theorem fresh_of_freshIn {net : Net Bool} {nonce : Bytes} (check : freshIn net nonce = true) :
    Fresh net nonce := by
  simp only [freshIn, Bool.and_eq_true, List.all_eq_true, decide_eq_true_eq] at check
  refine ⟨check.1, ?_⟩
  intro node
  exact check.2 node (by cases node <;> simp)

theorem unforged_of_unforgedAt {net : Net Bool} {k : Nat} {msg : Fields} {endpoint : Endpoint Bool}
    (check : unforgedAt net k msg = true) (found : net.links[k]? = some (.tapped endpoint)) :
    Unforged sessionIdentity net endpoint msg := by
  intro node responseHex given verified
  simp only [unforgedAt, found, given, List.all_eq_true, Bool.or_eq_true, Bool.not_eq_true',
    decide_eq_true_eq] at check
  rcases check node (by cases node <;> simp) with refused | made
  · rw [verified] at refused
    cases refused
  · exact made

theorem possible_of_possibleRun {net : Net Bool} {events : List (Event Bool)}
    (check : possibleRun net events = true) :
    Run.Admissible (step sessionIdentity (fun _ => true)) (Possible sessionIdentity) net events := by
  induction events generalizing net with
  | nil => trivial
  | cons event rest ih =>
      obtain ⟨now, later⟩ := Bool.and_eq_true_iff.mp check
      refine ⟨?_, ih later⟩
      cases event with
      | join initiator responder nonce nonce' =>
          simp only [possibleNow, Bool.and_eq_true, decide_eq_true_eq] at now
          exact ⟨fresh_of_freshIn now.1.1, fresh_of_freshIn now.1.2, now.2⟩
      | tap => exact fresh_of_freshIn now
      | inject => exact fun endpoint found => unforged_of_unforgedAt now found
      | deliver => trivial
      | sendApp => trivial

end Gyza.Sample

namespace Gyza.Sessions

/-- An honest message, delivered on a link of the two nodes. -/
theorem messages_attributed_sample :
    Attributed Sample.sessionIdentity (Sample.netAfter Sample.joinedRun) ∧
      Sample.senderTexts (Sample.netAfter Sample.joinedRun) =
        [(Sample.sessionIdentity true).pubkeyHex] := by
  have possible := Sample.possible_of_possibleRun
    (show Sample.possibleRun {} Sample.joinedRun = true by decide +kernel)
  refine ⟨?_, by decide +kernel⟩
  exact messages_attributed Sample.sessionIdentity (fun _ => true) Sample.joinedRun possible
    (by simp [Sample.joinedRun, Run.Admissible, Plain]) Sample.joinedRun [] (List.append_nil _).symm

/-- A message of the attacker under a node's name, and one under a relayed challenge. -/
theorem messages_misattributed :
    (Run.Admissible (step Sample.sessionIdentity (fun _ => true)) (Possible Sample.sessionIdentity) {}
        Sample.namingRun ∧ ¬Attributed Sample.sessionIdentity (Sample.netAfter Sample.namingRun)) ∧
      Run.Admissible (step Sample.sessionIdentity (fun _ => true)) (Possible Sample.sessionIdentity) {}
        Sample.relayRun ∧ ¬Attributed Sample.sessionIdentity (Sample.netAfter Sample.relayRun) := by
  have naming : Sample.possibleRun {} Sample.namingRun = true := by decide +kernel
  have relay : Sample.possibleRun {} Sample.relayRun = true := by decide +kernel
  exact ⟨⟨Sample.possible_of_possibleRun naming,
      Sample.not_attributed (by decide +kernel)⟩,
    Sample.possible_of_possibleRun relay,
    Sample.not_attributed (by decide +kernel)⟩

end Gyza.Sessions

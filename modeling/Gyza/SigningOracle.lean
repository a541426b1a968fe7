import Gyza.Envelope
import Gyza.Transport
import Gyza.Lib.Run

/-! What the handshake's signatures are worth as envelope signatures.

The agent's key signs the peer's nonce as it comes, and an envelope's digest is
as long as a nonce. -/

namespace Gyza

open Hex (Bytes)
open PyValue (Fields Value dictGet)
open GyzaProtocol

/-- Ed25519 with the key, on messages as long as a digest: a signature has 64
bytes and verifies for no message but the signed one. -/
structure IdealSigner (crypto : Crypto) (identity : LocalCompositor crypto) : Prop where
  digest_length : ∀ data, (crypto.blake3 data).length = 32
  signature_length : ∀ message sig,
    crypto.ed25519Verify identity.publicBytes message sig = true → sig.length = 64
  binds : ∀ message other : Bytes, message.length = 32 → other.length = 32 →
    crypto.ed25519Verify identity.publicBytes other (identity.signBytes message) = true →
      other = message

namespace SigningOracle

/-- The texts in the frames that are sent. -/
def sentTexts (actions : List Action) : List String :=
  actions.flatMap fun action =>
    match action with
    | .sendFrame msg => msg.filterMap fun field =>
        match field.2 with
        | .str text => some text
        | _ => none
    | _ => []

/-- A protocol with the texts it has sent so far. -/
structure Overheard where
  protocol : GyzaProtocol
  texts : List String

section Runs

variable {crypto : Crypto} (identity : LocalCompositor crypto)

def opening (protocol : GyzaProtocol) : Overheard :=
  ⟨protocol, sentTexts (openingFrames identity protocol)⟩

def step (overheard : Overheard) (msg : Fields) : Overheard :=
  let (protocol, actions) := dispatch identity overheard.protocol msg
  ⟨protocol, overheard.texts ++ sentTexts actions⟩

/-- No text that was sent is the signature of an envelope that was not signed. -/
def Overheard.NoForgery (signed : ICPEnvelope → Prop) (overheard : Overheard) : Prop :=
  ∀ text ∈ overheard.texts, ∀ env : ICPEnvelope,
    verifyEnvelope crypto { env with signature := text } identity.publicBytes = true →
      signed env.unsigned

/-- The frame is a hello whose nonce the node signs: an initiator answers only when its
own nonce comes back signed. -/
def Answers (protocol : GyzaProtocol) (msg : Fields) (nonce : Bytes) : Prop :=
  ∃ pubkeyHex pk, HelloFrom identity msg pubkeyHex pk nonce ∧
    (protocol.isInitiator = true → ∃ responseHex,
      dictGet msg "response" .none = .str responseHex ∧
        responseVerifies crypto pk responseHex protocol.ourNonce = true)

/-- No nonce that the node signs is the digest of an envelope that was not signed. -/
def SignsNoDigest (signed : ICPEnvelope → Prop) (overheard : Overheard) (msg : Fields) : Prop :=
  ∀ nonce, Answers identity overheard.protocol msg nonce →
    ∀ env : ICPEnvelope, crypto.blake3 env.payloadBytes = nonce → signed env.unsigned

end Runs

variable {crypto : Crypto} {identity : LocalCompositor crypto}

/-- What a node sends in answer to a frame. -/
theorem dispatch_answers {protocol : GyzaProtocol} {msg : Fields} {nonce : Bytes}
    (answers : Answers identity protocol msg nonce) :
    identity.sign nonce ∈ sentTexts (dispatch identity protocol msg).2 ∧
      ∀ text ∈ sentTexts (dispatch identity protocol msg).2, text = "hello" ∨ text = "hello_ack" ∨
        text = identity.pubkeyHex ∨ text = Hex.encode protocol.ourNonce ∨
          text = identity.sign nonce := by
  obtain ⟨pubkeyHex, pk, hello, responds⟩ := answers
  cases initiator : protocol.isInitiator with
  | true =>
      obtain ⟨responseHex, response, verified⟩ := responds initiator
      rw [dispatch_proved identity hello initiator response verified]
      simp [sentTexts, helloAckFrame]
  | false =>
      rw [dispatch_challenged identity hello initiator]
      simp [sentTexts, helloFrame]

/-- A node sends texts in answer to a hello whose nonce it signs, and to nothing else. -/
theorem dispatch_silent_or (protocol : GyzaProtocol) (msg : Fields) :
    sentTexts (dispatch identity protocol msg).2 = [] ∨
      ∃ nonce, Answers identity protocol msg nonce := by
  have handled := dispatch_handled identity protocol msg
  generalize dispatch identity protocol msg = result at handled
  obtain ⟨after, actions⟩ := result
  dsimp only at handled ⊢
  cases handled with
  | refused => exact Or.inl rfl
  | proved pubkeyHex responseHex pk nonce hello _ given verified =>
      exact Or.inr ⟨nonce, pubkeyHex, pk, hello, fun _ => ⟨responseHex, given, verified⟩⟩
  | challenged pubkeyHex pk nonce hello responder =>
      exact Or.inr ⟨nonce, pubkeyHex, pk, hello, fun first => by simp [responder] at first⟩
  | acknowledged => exact Or.inl rfl
  | app => exact Or.inl rfl

/-- Only a text of 64 bytes can be a signature of the key. -/
theorem not_signature (ideal : IdealSigner crypto identity) {text : String} {env : ICPEnvelope}
    (length : ∀ sig, Hex.fromhex text = some sig → sig.length ≠ 64) :
    verifyEnvelope crypto { env with signature := text } identity.publicBytes = false := by
  unfold verifyEnvelope
  split_ifs
  · rfl
  · split
    next => rfl
    next sig decoded =>
      cases verified : crypto.ed25519Verify identity.publicBytes
        (crypto.blake3 (ICPEnvelope.payloadBytes { env with signature := text })) sig with
      | false => simp
      | true => exact absurd (ideal.signature_length _ _ verified) (length sig decoded)

theorem not_signature_of_bytes (ideal : IdealSigner crypto identity) {bytes : Bytes}
    (short : bytes.length = 32) (env : ICPEnvelope) :
    verifyEnvelope crypto { env with signature := Hex.encode bytes } identity.publicBytes =
      false := by
  apply not_signature ideal
  intro sig decoded
  rw [Hex.fromhex_encode] at decoded
  cases decoded
  omega

/-- The signature of a nonce is that of the envelopes whose digest is the nonce. -/
theorem verifyEnvelope_nonce_iff (ideal : IdealSigner crypto identity) {nonce : Bytes}
    (short : nonce.length = 32) (env : ICPEnvelope) :
    verifyEnvelope crypto { env with signature := identity.sign nonce } identity.publicBytes = true ↔
      crypto.blake3 env.payloadBytes = nonce := by
  have decoded : Hex.fromhex (identity.sign nonce) = some (identity.signBytes nonce) :=
    Hex.fromhex_encode _
  have payload : ICPEnvelope.payloadBytes { env with signature := identity.sign nonce } =
      env.payloadBytes := rfl
  simp only [verifyEnvelope, identity.sign_ne_empty, if_false, decoded, payload,
    identity.publicBytes_length, decide_true, Bool.true_and]
  constructor
  · exact ideal.binds nonce _ short (ideal.digest_length _)
  · rintro rfl
    exact identity.signBytes_verifies _

/-- Beside the signed nonces, nothing that is sent is a signature. -/
theorem not_signature_of_frame (ideal : IdealSigner crypto identity) {protocol : GyzaProtocol}
    {text : String} (other : text = "hello" ∨ text = "hello_ack" ∨ text = identity.pubkeyHex ∨
      text = Hex.encode protocol.ourNonce) (env : ICPEnvelope) :
    verifyEnvelope crypto { env with signature := text } identity.publicBytes = false := by
  rcases other with rfl | rfl | rfl | rfl
  · exact not_signature ideal (fun sig decoded => by cases decoded)
  · exact not_signature ideal (fun sig decoded => by cases decoded)
  · exact not_signature_of_bytes ideal identity.publicBytes_length env
  · exact not_signature_of_bytes ideal protocol.ourNonce_length env

theorem Overheard.opening_noForgery (ideal : IdealSigner crypto identity)
    (signed : ICPEnvelope → Prop) (protocol : GyzaProtocol) :
    (opening identity protocol).NoForgery identity signed := by
  intro text sent env verified
  have other : text = "hello" ∨ text = "hello_ack" ∨ text = identity.pubkeyHex ∨
      text = Hex.encode protocol.ourNonce := by
    cases initiator : protocol.isInitiator with
    | true =>
        simp only [opening, openingFrames, initiator, sentTexts, helloFrame] at sent
        simp only [if_true, List.flatMap_cons, List.flatMap_nil, Option.toList_none, List.map_nil,
          List.append_nil, List.filterMap_cons, List.filterMap_nil, List.mem_cons,
          List.not_mem_nil, or_false] at sent
        tauto
    | false => simp [opening, openingFrames, initiator, sentTexts] at sent
  rw [not_signature_of_frame ideal other env] at verified
  cases verified

theorem Overheard.step_noForgery_iff (ideal : IdealSigner crypto identity)
    (signed : ICPEnvelope → Prop) (overheard : Overheard) (msg : Fields)
    (clean : overheard.NoForgery identity signed) :
    (SigningOracle.step identity overheard msg).NoForgery identity signed ↔
      SignsNoDigest identity signed overheard msg := by
  constructor
  · intro after nonce answers env digest
    have sent := (dispatch_answers answers).1
    obtain ⟨_, _, hello, _⟩ := answers
    exact after (identity.sign nonce) (List.mem_append_right _ sent) env
      ((verifyEnvelope_nonce_iff ideal hello.nonce_length env).mpr digest)
  · intro harmless text sent env verified
    rcases List.mem_append.mp sent with before | added
    · exact clean text before env verified
    · have now : text ∈ sentTexts (dispatch identity overheard.protocol msg).2 := added
      rcases @dispatch_silent_or _ identity overheard.protocol msg with
        silent | ⟨nonce, answers⟩
      · rw [silent] at now
        cases now
      · have texts := (dispatch_answers answers).2 text now
        by_cases signature : text = identity.sign nonce
        · rw [signature] at verified
          obtain ⟨_, _, hello, _⟩ := id answers
          exact harmless nonce answers env
            ((verifyEnvelope_nonce_iff ideal hello.nonce_length env).mp verified)
        · have other : text = "hello" ∨ text = "hello_ack" ∨ text = identity.pubkeyHex ∨
              text = Hex.encode overheard.protocol.ourNonce := by
            tauto
          rw [not_signature_of_frame ideal other env] at verified
          cases verified

/-- Nothing that a node sends in the handshake signs an envelope that its signer never
signed, exactly when no hello that it answers carries the digest of one. -/
theorem handshake_signs_no_envelope_iff (ideal : IdealSigner crypto identity)
    (signed : ICPEnvelope → Prop) (protocol : GyzaProtocol) (frames : List Fields) :
    (∀ front back, frames = front ++ back →
      (Run.run (step identity) (opening identity protocol) front).NoForgery identity signed) ↔
      Run.Admissible (step identity) (SignsNoDigest identity signed) (opening identity protocol)
        frames :=
  Run.invariant_iff_admissible (step identity) (SignsNoDigest identity signed)
    (Overheard.NoForgery identity signed)
    (fun overheard msg clean => overheard.step_noForgery_iff ideal signed msg clean)
    (opening identity protocol) frames (Overheard.opening_noForgery ideal signed protocol)

end SigningOracle

namespace Sample

/-- 32 bytes are their own text; longer ones are cut, shorter ones filled up. -/
def fit (message : Bytes) : Bytes := (message ++ List.replicate 32 0).take 32

theorem fit_eq {message : Bytes} (length : message.length = 32) : fit message = message := by
  rw [fit, List.take_append_of_le_length length.ge, ← length, List.take_length]

theorem fit_length (message : Bytes) : (fit message).length = 32 := by
  simp [fit]

/-- Digests of 32 bytes, and signatures of 64 that name what they sign. -/
def shortCrypto : Crypto where
  blake3 := checksumBytes
  ed25519Verify pubkey message sig := decide (sig = pubkey ++ fit message)

theorem shortKey_length (seed : UInt8) : (List.replicate 32 seed).length = 32 :=
  List.length_replicate

def shortKey (seed : UInt8) : LocalCompositor shortCrypto where
  publicBytes := List.replicate 32 seed
  signBytes message := List.replicate 32 seed ++ fit message
  publicBytes_length := shortKey_length seed
  signBytes_length := by
    intro message
    simp only [List.length_append, List.length_replicate, fit_length]
  signBytes_verifies := fun _ => decide_eq_true rfl

theorem shortKey_ideal (seed : UInt8) : IdealSigner shortCrypto (shortKey seed) where
  digest_length data := by simp [shortCrypto, checksumBytes]
  signature_length message sig verified := by
    rw [of_decide_eq_true verified]
    simp only [shortKey, List.length_append, List.length_replicate, fit_length]
  binds message other short short' verified := by
    have same := List.append_cancel_left (of_decide_eq_true verified)
    rw [fit_eq short, fit_eq short'] at same
    exact same.symm

def responder : GyzaProtocol where
  isInitiator := false
  ourNonce := List.replicate 32 7
  ourNonce_length := by simp

def forgedEnvelope : ICPEnvelope :=
  { Sample.envelope ["in"] "out" none with agentPubkey := (shortKey 1).pubkeyHex, signature := "" }

def helloWith (nonce : Bytes) : Fields :=
  [("type", .str "hello"), ("pubkey", .str (shortKey 2).pubkeyHex),
    ("nonce", .str (Hex.encode nonce))]

end Sample

open SigningOracle in
theorem handshake_signs_no_envelope_sample :
    (Run.run (step (Sample.shortKey 1)) (opening (Sample.shortKey 1) Sample.responder)
      [Sample.helloWith [1, 2, 3]]).NoForgery (Sample.shortKey 1) (fun _ => False) := by
  refine (handshake_signs_no_envelope_iff (Sample.shortKey_ideal 1) (fun _ => False)
    Sample.responder [Sample.helloWith [1, 2, 3]]).mpr ⟨?_, trivial⟩ [Sample.helloWith [1, 2, 3]] []
    rfl
  -- the nonce is too short to be signed
  rintro nonce ⟨_, _, hello, _⟩
  obtain ⟨nonceHex, given, carried⟩ := hello.carries
  have length := hello.nonce_length
  cases given
  rw [Hex.fromhex_encode] at carried
  cases carried
  cases length

/-- The peer sends the digest of an envelope as its nonce. -/
theorem SigningOracle.handshake_signs_envelope :
    ¬(Run.run (step (Sample.shortKey 1)) (opening (Sample.shortKey 1) Sample.responder)
      [Sample.helloWith (Sample.shortCrypto.blake3 Sample.forgedEnvelope.payloadBytes)]).NoForgery
        (Sample.shortKey 1) (fun _ => False) := by
  have ideal := Sample.shortKey_ideal 1
  have answers : Answers (Sample.shortKey 1) Sample.responder
      (Sample.helloWith (Sample.shortCrypto.blake3 Sample.forgedEnvelope.payloadBytes))
      (Sample.shortCrypto.blake3 Sample.forgedEnvelope.payloadBytes) := by
    refine ⟨(Sample.shortKey 2).pubkeyHex, (Sample.shortKey 2).publicBytes, ⟨rfl, rfl,
      Hex.fromhex_encode _, (Sample.shortKey 2).publicBytes_length,
      ⟨_, rfl, Hex.fromhex_encode _⟩, ideal.digest_length _, ?_⟩, ?_⟩
    · intro same
      have bytes : List.replicate 32 (2 : UInt8) = List.replicate 32 1 := Hex.encode_injective same
      exact absurd bytes (by decide)
    · intro initiator
      cases initiator
  rw [Run.run_cons, Run.run_nil, Overheard.step_noForgery_iff ideal _ _ _
    (Overheard.opening_noForgery ideal _ _)]
  intro harmless
  exact harmless _ answers Sample.forgedEnvelope rfl

end Gyza

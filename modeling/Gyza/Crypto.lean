import Gyza.Lib.Hex

/-! The primitives the node takes from third-party packages, and its signing key.

BLAKE3 and Ed25519 verification stay parameters. What a result needs of them
(injectivity of the hash, correctness of a key pair) is stated where it is used. -/

namespace Gyza

open Hex (Bytes)

structure Crypto where
  blake3 : Bytes → Bytes
  /-- `Ed25519PublicKey.from_public_bytes(pubkey).verify(signature, message)`. -/
  ed25519Verify : (pubkey message signature : Bytes) → Bool

namespace Crypto

def hexdigest (crypto : Crypto) (data : Bytes) : String := Hex.encode (crypto.blake3 data)

theorem hexdigest_injective (crypto : Crypto) (ideal : Function.Injective crypto.blake3) :
    Function.Injective crypto.hexdigest := by
  intro left right same
  exact ideal (Hex.encode_injective same)

end Crypto

/-- A key pair as `LocalCompositor` holds it. The last three fields are the
contract of Ed25519: fixed lengths, and every signature made verifies. -/
structure LocalCompositor (crypto : Crypto) where
  publicBytes : Bytes
  signBytes : Bytes → Bytes
  publicBytes_length : publicBytes.length = 32
  signBytes_length : ∀ message, (signBytes message).length = 64
  signBytes_verifies : ∀ message,
    crypto.ed25519Verify publicBytes message (signBytes message) = true

namespace LocalCompositor

variable {crypto : Crypto}

def pubkeyHex (compositor : LocalCompositor crypto) : String := Hex.encode compositor.publicBytes

def sign (compositor : LocalCompositor crypto) (data : Bytes) : String :=
  Hex.encode (compositor.signBytes data)

theorem pubkeyHex_ne_empty (compositor : LocalCompositor crypto) : compositor.pubkeyHex ≠ "" := by
  apply Hex.encode_ne_empty
  intro empty
  have length := compositor.publicBytes_length
  rw [empty] at length
  cases length

theorem sign_ne_empty (compositor : LocalCompositor crypto) (data : Bytes) :
    compositor.sign data ≠ "" := by
  apply Hex.encode_ne_empty
  intro empty
  have length := compositor.signBytes_length data
  rw [empty] at length
  cases length

end LocalCompositor

/-! A concrete instance, to run the model on: the hash is the identity and a
signature is the public key followed by a 32-byte checksum of the message. -/

namespace Sample

def checksum (message : Bytes) : Nat :=
  message.foldl (fun total byte => (total * 257 + byte.toNat + 1) % 2 ^ 256) 1

def checksumBytes (message : Bytes) : Bytes :=
  (List.range 32).map (fun index => UInt8.ofNat (checksum message / 256 ^ index % 256))

def signature (pubkey message : Bytes) : Bytes := pubkey ++ checksumBytes message

def crypto : Crypto where
  blake3 := id
  ed25519Verify pubkey message sig := decide (sig = signature pubkey message)

theorem blake3_injective : Function.Injective crypto.blake3 := Function.injective_id

def compositor (seed : UInt8) : LocalCompositor crypto where
  publicBytes := List.replicate 32 seed
  signBytes := signature (List.replicate 32 seed)
  publicBytes_length := by simp
  signBytes_length := by
    intro message
    simp only [signature, checksumBytes, List.length_append, List.length_replicate,
      List.length_map, List.length_range]
  signBytes_verifies := fun _ => decide_eq_true rfl

end Sample

end Gyza

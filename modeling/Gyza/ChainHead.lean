import Gyza.DagChain
import Gyza.Lib.HashChain

/-! What the hash of a chain's last envelope says about the chain.

The first envelope of an accepted chain names no parent and every later one does, so two
chains that meet in their last hashes have met at their first envelopes too. -/

namespace Gyza

open Hex (Bytes)

variable {crypto : Crypto}

/-- BLAKE3 tells the payloads of these envelopes apart. -/
def PayloadsApart (crypto : Crypto) (envelopes : List ICPEnvelope) : Prop :=
  Set.InjOn crypto.blake3 { payload | ∃ env ∈ envelopes, payload = env.payloadBytes }

/-- An envelope links to the hash it names as its parent; the first one to none. -/
def envelopeLink (crypto : Crypto) (env : ICPEnvelope) : Option String :=
  some (computeEnvelopeHash crypto env)

theorem unsigned_of_sameHash {envelopes : List ICPEnvelope} (apart : PayloadsApart crypto envelopes)
    {env other : ICPEnvelope} (member : env ∈ envelopes) (member' : other ∈ envelopes)
    (same : computeEnvelopeHash crypto env = computeEnvelopeHash crypto other) :
    env.unsigned = other.unsigned := by
  have digests : crypto.blake3 env.payloadBytes = crypto.blake3 other.payloadBytes :=
    Hex.encode_injective same
  have payloads : env.payloadBytes = other.payloadBytes :=
    apart ⟨env, member, rfl⟩ ⟨other, member', rfl⟩ digests
  exact (payloadBytes_eq_iff env other).mp payloads

theorem chainFrom_linked {previous : Option ICPEnvelope} {envelopes : List ICPEnvelope}
    (chain : ChainFrom crypto previous envelopes) :
    HashChain.Linked ICPEnvelope.parentEnvelopeHash (envelopeLink crypto)
      (previous.map (computeEnvelopeHash crypto)) envelopes := by
  induction envelopes generalizing previous with
  | nil => trivial
  | cons env rest ih => exact ⟨chain.2.1, ih chain.2.2.2⟩

theorem head_of_getLast? {envelopes : List ICPEnvelope} {last : ICPEnvelope}
    (ends : envelopes.getLast? = some last) :
    HashChain.head (envelopeLink crypto) none envelopes =
      some (computeEnvelopeHash crypto last) := by
  rcases List.getLast?_eq_some_iff.mp ends with ⟨init, rfl⟩
  rw [HashChain.head_append]
  rfl

end Gyza

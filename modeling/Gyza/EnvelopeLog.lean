import Gyza.Envelope
import Gyza.Lib.Table

/-! The persistent envelope log (`icp_envelopes`).

A row is keyed by the hash of the payload without its signature, so the key
does not tell a signed envelope from a forged copy of it. -/

namespace Gyza

structure EnvelopeRow where
  envelopeHash : String
  intentId : String
  actionId : String
  agentPubkey : String
  parentEnvelopeHash : Option String
  /-- `payload_json`, kept as the envelope it decodes to. -/
  payload : ICPEnvelope
  timestampNs : Int
  deriving DecidableEq

abbrev EnvelopeLog := Table EnvelopeRow.envelopeHash

inductive StoreError where
  | bindOverflow
  deriving DecidableEq

section Store

variable (crypto : Crypto)

def envelopeRow (env : ICPEnvelope) : EnvelopeRow where
  envelopeHash := computeEnvelopeHash crypto env
  intentId := env.intentId
  actionId := env.actionId
  agentPubkey := env.agentPubkey
  parentEnvelopeHash := env.parentEnvelopeHash
  payload := env
  timestampNs := env.timestampNs

/-- `INSERT OR REPLACE`; an integer outside the column's range raises first. -/
def storeEnvelope (log : EnvelopeLog) (env : ICPEnvelope) :
    Except StoreError (String × EnvelopeLog) :=
  if FitsInt64 env.timestampNs then
    .ok (computeEnvelopeHash crypto env, log.insertOrReplace (envelopeRow crypto env))
  else .error .bindOverflow

def getEnvelope (log : EnvelopeLog) (envelopeHash : String) : Option ICPEnvelope :=
  (log.get? envelopeHash).map EnvelopeRow.payload

/-- The log after a call of `store_envelope`, whether or not it raised. -/
def afterStore (log : EnvelopeLog) (env : ICPEnvelope) : EnvelopeLog :=
  match storeEnvelope crypto log env with
  | .ok (_, stored) => stored
  | .error _ => log

/-- `_absorb_envelope`: every exception is swallowed. -/
def absorbEnvelope (settleBb : Option EnvelopeLog) (shipped : Option ICPEnvelope) :
    Option EnvelopeLog :=
  match settleBb, shipped with
  | some log, some env => some (afterStore crypto log env)
  | log, _ => log

/-- `count_envelopes_since`: the envelopes recorded at or after the origin. -/
def countEnvelopesSince (log : EnvelopeLog) (originNs : Int) : Except StoreError Nat :=
  if FitsInt64 originNs then
    .ok (log.rows.countP (fun row => originNs ≤ row.timestampNs))
  else .error .bindOverflow

/-- A row of the agent, recorded at or after the origin. -/
def EnvelopeRow.countsFor (agentPubkey : String) (originNs : Int) (row : EnvelopeRow) : Bool :=
  decide (row.agentPubkey = agentPubkey ∧ originNs ≤ row.timestampNs)

/-- `count_agent_envelopes_since`: the per-agent count a rate cap is compared with. -/
def countAgentEnvelopesSince (log : EnvelopeLog) (agentPubkey : String) (originNs : Int) :
    Except StoreError Nat :=
  if FitsInt64 originNs then .ok (log.rows.countP (EnvelopeRow.countsFor agentPubkey originNs))
  else .error .bindOverflow

/-- The Rust port keeps the row it has: `INSERT OR IGNORE`, over an `i64` timestamp. -/
def rustStoreEnvelope (log : EnvelopeLog) (env : ICPEnvelope) : EnvelopeLog :=
  log.insertOrIgnore (envelopeRow crypto env)

/-- `get_envelope` answers with an envelope whose signature verifies. -/
def Evidence (log : EnvelopeLog) (envelopeHash : String) : Prop :=
  ∃ env, getEnvelope log envelopeHash = some env ∧ selfVerifies crypto env = true

def KeepsEvidence (before after : EnvelopeLog) : Prop :=
  ∀ envelopeHash, Evidence crypto before envelopeHash → Evidence crypto after envelopeHash

end Store

variable {crypto : Crypto}

theorem afterStore_fits {env : ICPEnvelope} (fits : FitsInt64 env.timestampNs) (log : EnvelopeLog) :
    afterStore crypto log env = log.insertOrReplace (envelopeRow crypto env) := by
  simp only [afterStore, storeEnvelope, if_pos fits]

theorem afterStore_overflow {env : ICPEnvelope} (wide : ¬ FitsInt64 env.timestampNs)
    (log : EnvelopeLog) : afterStore crypto log env = log := by
  simp only [afterStore, storeEnvelope, if_neg wide]

/-- A store that succeeds answers with its own envelope, and leaves every other hash alone. -/
theorem getEnvelope_afterStore {env : ICPEnvelope} (fits : FitsInt64 env.timestampNs)
    (log : EnvelopeLog) (envelopeHash : String) :
    getEnvelope (afterStore crypto log env) envelopeHash =
      if computeEnvelopeHash crypto env = envelopeHash then some env
      else getEnvelope log envelopeHash := by
  rw [afterStore_fits fits]
  simp only [getEnvelope, Table.get?_insertOrReplace, envelopeRow]
  split_ifs <;> rfl

/-- An envelope that was not there before counts once. -/
theorem countEnvelopesSince_afterStore {env : ICPEnvelope} (fits : FitsInt64 env.timestampNs)
    {log : EnvelopeLog} (fresh : getEnvelope log (computeEnvelopeHash crypto env) = none)
    {originNs : Int} (since : originNs ≤ env.timestampNs) {count : Nat}
    (counted : countEnvelopesSince log originNs = .ok count) :
    countEnvelopesSince (afterStore crypto log env) originNs = .ok (count + 1) := by
  have stamped : originNs ≤ (envelopeRow crypto env).timestampNs := since
  have absent : log.get? (envelopeRow crypto env).envelopeHash = none := Option.map_eq_none_iff.mp fresh
  unfold countEnvelopesSince at counted ⊢
  split_ifs at counted ⊢
  rw [afterStore_fits fits, Table.rows_insertOrReplace log _ absent, List.countP_append,
    Except.ok.inj counted]
  simp [stamped]

/-- Evidence survives a store unless an unverifiable envelope replaces it. -/
theorem storeEnvelope_keeps_evidence_iff (log : EnvelopeLog) (env : ICPEnvelope) :
    KeepsEvidence crypto log (afterStore crypto log env) ↔
      selfVerifies crypto env = true ∨ ¬ FitsInt64 env.timestampNs ∨
        ¬ Evidence crypto log (computeEnvelopeHash crypto env) := by
  by_cases fits : FitsInt64 env.timestampNs
  · constructor
    · intro keeps
      by_cases held : Evidence crypto log (computeEnvelopeHash crypto env)
      · left
        rcases keeps _ held with ⟨stored, found, verifies⟩
        rw [getEnvelope_afterStore fits, if_pos rfl] at found
        rwa [Option.some.inj found]
      · exact Or.inr (Or.inr held)
    · intro harmless envelopeHash held
      by_cases same : computeEnvelopeHash crypto env = envelopeHash
      · subst same
        have verifies : selfVerifies crypto env = true := by
          rcases harmless with verifies | wide | absent
          · exact verifies
          · exact absurd fits wide
          · exact absurd held absent
        exact ⟨env, by rw [getEnvelope_afterStore fits, if_pos rfl], verifies⟩
      · rcases held with ⟨kept, found, verifies⟩
        exact ⟨kept, by rw [getEnvelope_afterStore fits, if_neg same, found], verifies⟩
  · rw [afterStore_overflow fits]
    constructor
    · intro _
      exact Or.inr (Or.inl fits)
    · intro _ envelopeHash held
      exact held

/-- The Rust store destroys nothing. -/
theorem rustStoreEnvelope_keeps_evidence (log : EnvelopeLog) (env : ICPEnvelope) :
    KeepsEvidence crypto log (rustStoreEnvelope crypto log env) := by
  intro envelopeHash held
  rcases held with ⟨kept, found, verifies⟩
  refine ⟨kept, ?_, verifies⟩
  simp only [getEnvelope, Option.map_eq_some_iff] at found ⊢
  rcases found with ⟨row, present, payload⟩
  refine ⟨row, ?_, payload⟩
  rw [rustStoreEnvelope, Table.get?_insertOrIgnore, present]
  simp

theorem unsigned_copy_destroys (log : EnvelopeLog) (env : ICPEnvelope)
    (fits : FitsInt64 env.timestampNs)
    (held : Evidence crypto log (computeEnvelopeHash crypto env)) :
    ¬ KeepsEvidence crypto log (afterStore crypto log env.unsigned) := by
  intro keeps
  rcases keeps _ held with ⟨stored, found, verifies⟩
  have copyFits : FitsInt64 env.unsigned.timestampNs := fits
  rw [getEnvelope_afterStore copyFits, if_pos (computeEnvelopeHash_unsigned env)] at found
  rw [← Option.some.inj found, selfVerifies_unsigned] at verifies
  cases verifies

/-- The log that holds one signed envelope. -/
def sampleLog : EnvelopeLog :=
  afterStore Sample.crypto Table.empty (Sample.envelope ["in"] "out" none)

/-- A peer's unsigned copy of the stored envelope takes its place. -/
theorem storeEnvelope_destroys_evidence :
    ¬ KeepsEvidence Sample.crypto sampleLog
      (afterStore Sample.crypto sampleLog (Sample.envelope ["in"] "out" none).unsigned) := by
  have fits : FitsInt64 (Sample.envelope ["in"] "out" none).timestampNs := by
    change FitsInt64 1000
    decide
  apply unsigned_copy_destroys sampleLog _ fits
  refine ⟨Sample.envelope ["in"] "out" none, ?_, Sample.envelope_verifies _ _ _⟩
  rw [sampleLog, getEnvelope_afterStore fits, if_pos rfl]

end Gyza

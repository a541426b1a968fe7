import Gyza.SettlementRuns

/-! What the messages of a peer do to the counts a rate cap is compared with. -/

namespace Gyza

section Budget

variable (crypto : Crypto) (compositor : LocalCompositor crypto)

/-- The agent signed the envelope. -/
def SignedBy (agentPubkey : String) (env : ICPEnvelope) : Prop :=
  env.agentPubkey = agentPubkey ∧ selfVerifies crypto env = true

/-- The message a call delivers, of either kind. -/
def SettlementCall.incoming : SettlementCall → Option IncomingMessage
  | .submitEarned _ => none
  | .earnerSigned _ message => some message
  | .payerCosigned message => some message

/-- The call delivers a message with an envelope that the agent did not sign. -/
def DeliversUnsigned (agentPubkey : String) (call : SettlementCall) : Prop :=
  ∃ message env, call.incoming = some message ∧ message.envelope = some env ∧
    ¬ SignedBy crypto agentPubkey env

/-- Every count of the agent is what it was. -/
def KeepsAgentCounts (agentPubkey : String) (before after : Option EnvelopeLog) : Prop :=
  ∀ originNs, after.map (countAgentEnvelopesSince · agentPubkey originNs) =
    before.map (countAgentEnvelopesSince · agentPubkey originNs)

/-- The call is an earner's entry that passes the checks made before its evidence
is stored, and the envelope it carries is one the log takes. -/
def Absorbs (service : Service) (log : EnvelopeLog) (env : ICPEnvelope) : SettlementCall → Prop
  | .earnerSigned _ message =>
      (∃ entry, admitEarnerSigned compositor service.ledger message = .ok entry) ∧
        service.settleBb = some log ∧ message.envelope = some env ∧ FitsInt64 env.timestampNs
  | _ => False

/-- The row already stored under the envelope's hash, if any, falls into the
agent's windows exactly where the envelope would. -/
def CountsAlready (agentPubkey : String) (log : EnvelopeLog) (env : ICPEnvelope) : Prop :=
  ∀ originNs, FitsInt64 originNs →
    ((∃ row, log.get? (computeEnvelopeHash crypto env) = some row ∧
        row.agentPubkey = agentPubkey ∧ originNs ≤ row.timestampNs) ↔
      env.agentPubkey = agentPubkey ∧ originNs ≤ env.timestampNs)

/-- Every row was written by `store_envelope`. -/
def StoredRows (log : EnvelopeLog) : Prop :=
  ∀ row ∈ log.rows, ∃ env, FitsInt64 env.timestampNs ∧ row = envelopeRow crypto env

end Budget

variable {crypto : Crypto}

theorem afterStore_storedRows {log : EnvelopeLog} (stored : StoredRows crypto log)
    (env : ICPEnvelope) : StoredRows crypto (afterStore crypto log env) := by
  by_cases fits : FitsInt64 env.timestampNs
  · rw [afterStore_fits fits]
    intro row member
    rcases (Table.mem_insertOrReplace log _ row).mp member with rfl | ⟨old, _⟩
    · exact ⟨env, fits, rfl⟩
    · exact stored row old
  · rw [afterStore_overflow fits]
    exact stored

/-- Counted rows of one envelope and of the row it replaces decide the change of a count. -/
theorem countAgentEnvelopesSince_store_iff (agentPubkey : String) (log : EnvelopeLog)
    (env : ICPEnvelope) (originNs : Int) (fits : FitsInt64 originNs) :
    countAgentEnvelopesSince (log.insertOrReplace (envelopeRow crypto env)) agentPubkey originNs =
        countAgentEnvelopesSince log agentPubkey originNs ↔
      ((∃ row, log.get? (computeEnvelopeHash crypto env) = some row ∧
          row.agentPubkey = agentPubkey ∧ originNs ≤ row.timestampNs) ↔
        env.agentPubkey = agentPubkey ∧ originNs ≤ env.timestampNs) := by
  have traded := log.countP_insertOrReplace (envelopeRow crypto env)
    (EnvelopeRow.countsFor agentPubkey originNs)
  have newRow : [envelopeRow crypto env].countP (EnvelopeRow.countsFor agentPubkey originNs) =
      if env.agentPubkey = agentPubkey ∧ originNs ≤ env.timestampNs then 1 else 0 := by
    simp [EnvelopeRow.countsFor, envelopeRow, List.countP_cons]
  have oldRow : (log.get? (envelopeRow crypto env).envelopeHash).toList.countP
        (EnvelopeRow.countsFor agentPubkey originNs) =
      if ∃ row, log.get? (computeEnvelopeHash crypto env) = some row ∧
          row.agentPubkey = agentPubkey ∧ originNs ≤ row.timestampNs then 1 else 0 := by
    change (log.get? (computeEnvelopeHash crypto env)).toList.countP _ = _
    cases log.get? (computeEnvelopeHash crypto env) with
    | none => simp
    | some row => simp [EnvelopeRow.countsFor, List.countP_cons]
  rw [newRow, oldRow] at traded
  simp only [countAgentEnvelopesSince, if_pos fits, Except.ok.injEq]
  by_cases held : ∃ row, log.get? (computeEnvelopeHash crypto env) = some row ∧
      row.agentPubkey = agentPubkey ∧ originNs ≤ row.timestampNs
  · by_cases counted : env.agentPubkey = agentPubkey ∧ originNs ≤ env.timestampNs
    · rw [if_pos held, if_pos counted] at traded
      exact iff_of_true (by omega) (iff_of_true held counted)
    · rw [if_pos held, if_neg counted] at traded
      exact iff_of_false (by omega) fun same => counted (same.mp held)
  · by_cases counted : env.agentPubkey = agentPubkey ∧ originNs ≤ env.timestampNs
    · rw [if_neg held, if_pos counted] at traded
      exact iff_of_false (by omega) fun same => held (same.mpr counted)
    · rw [if_neg held, if_neg counted] at traded
      exact iff_of_true (by omega) (iff_of_false held counted)

theorem keepsAgentCounts_store_iff (agentPubkey : String) (log : EnvelopeLog) (env : ICPEnvelope) :
    KeepsAgentCounts agentPubkey (some log)
        (some (log.insertOrReplace (envelopeRow crypto env))) ↔
      CountsAlready crypto agentPubkey log env := by
  constructor
  · intro kept originNs fits
    exact (countAgentEnvelopesSince_store_iff agentPubkey log env originNs fits).mp
      (Option.some.inj (kept originNs))
  · intro counts originNs
    by_cases fits : FitsInt64 originNs
    · exact congrArg some
        ((countAgentEnvelopesSince_store_iff agentPubkey log env originNs fits).mpr
          (counts originNs fits))
    · simp [countAgentEnvelopesSince, fits]

/-- In a log of stored rows, an envelope that names another agent changes no count
of this one, and an envelope that names it is counted once its payload is stored. -/
theorem countsAlready_iff (ideal : Function.Injective crypto.blake3) {log : EnvelopeLog}
    (stored : StoredRows crypto log) (agentPubkey : String) {env : ICPEnvelope}
    (fits : FitsInt64 env.timestampNs) :
    CountsAlready crypto agentPubkey log env ↔
      (env.agentPubkey = agentPubkey → (log.get? (computeEnvelopeHash crypto env)).isSome) := by
  cases held : log.get? (computeEnvelopeHash crypto env) with
  | none =>
      simp only [CountsAlready, held, reduceCtorEq, false_and, exists_false, false_iff, not_and,
        Option.isSome_none, Bool.false_eq_true]
      constructor
      · intro counts named
        exact counts env.timestampNs fits named le_rfl
      · intro other originNs _ named
        exact absurd named other
  | some row =>
      rcases (Table.get?_eq_some log _ row).mp held with ⟨member, hashed⟩
      rcases stored row member with ⟨source, _, rfl⟩
      -- one hash is one payload, so the two rows agree on what is counted
      have payload := (computeEnvelopeHash_eq_iff ideal source env).mp hashed
      have agents := congrArg ICPEnvelope.agentPubkey payload
      have stamps := congrArg ICPEnvelope.timestampNs payload
      simp only [ICPEnvelope.unsigned] at agents stamps
      simp [CountsAlready, held, envelopeRow, agents, stamps]

section Messages

variable (compositor : LocalCompositor crypto)

theorem checkHarm_settleBb (callbacks : Callbacks) (service : Service) (entry : LedgerEntry) :
    (checkHarm callbacks service entry).2.settleBb = service.settleBb := by
  unfold checkHarm
  split
  · rfl
  · split
    · rfl
    · split_ifs <;> rfl

/-- Past the first checks nothing of the outcome decides what is stored. -/
theorem handleEarnerSigned_settleBb (service : Service) (callbacks : Callbacks)
    (message : IncomingMessage) :
    (handleEarnerSigned compositor service callbacks message).2.settleBb =
      match admitEarnerSigned compositor service.ledger message with
      | .ok _ => absorbEnvelope crypto service.settleBb message.envelope
      | .error _ => service.settleBb := by
  unfold handleEarnerSigned
  cases admitEarnerSigned compositor service.ledger message with
  | error outcome => rfl
  | ok entry =>
      have kept := checkHarm_settleBb callbacks { service with
        settleBb := absorbEnvelope crypto service.settleBb message.envelope } entry
      dsimp only
      split
      · rfl
      · split
        · rename_i outcome checked refused
          rw [refused] at kept
          exact kept
        · rename_i checked passed
          rw [passed] at kept
          split
          · exact kept
          · exact kept

theorem handlePayerCosigned_settleBb (service : Service) (message : IncomingMessage) :
    (handlePayerCosigned compositor service message).2.settleBb = service.settleBb := by
  unfold handlePayerCosigned
  split
  · rfl
  · split_ifs
    · rfl
    · rfl
    · split
      · split <;> rfl
      · split_ifs
        · split <;> rfl
        · rfl

theorem submitEarned_settleBb {service next : Service} {work : EarnedWork} {entry : LedgerEntry}
    (submitted : submitEarned compositor service work = .ok (entry, next)) :
    next.settleBb = service.settleBb := by
  simp only [submitEarned, bind, Except.bind, pure, Except.pure] at submitted
  split at submitted
  · cases submitted
  · split at submitted
    · cases submitted
    · split at submitted
      · cases submitted
      · cases submitted
        rfl

theorem settlementStep_absorbs {service : Service} {log : EnvelopeLog} {env : ICPEnvelope}
    {call : SettlementCall} (absorbs : Absorbs crypto compositor service log env call) :
    (settlementStep compositor service call).settleBb =
      some (log.insertOrReplace (envelopeRow crypto env)) := by
  cases call with
  | submitEarned work => cases absorbs
  | payerCosigned message => cases absorbs
  | earnerSigned callbacks message =>
      rcases absorbs with ⟨⟨entry, admitted⟩, wired, carried, fits⟩
      simp only [settlementStep, handleEarnerSigned_settleBb, admitted, wired, carried,
        absorbEnvelope, afterStore_fits fits]

theorem settlementStep_settleBb {service : Service} {call : SettlementCall}
    (nothing : ∀ log env, ¬ Absorbs crypto compositor service log env call) :
    (settlementStep compositor service call).settleBb = service.settleBb := by
  cases call with
  | submitEarned work =>
      simp only [settlementStep]
      split
      · rename_i entry next submitted
        exact submitEarned_settleBb compositor submitted
      · rfl
  | payerCosigned message => exact handlePayerCosigned_settleBb compositor service message
  | earnerSigned callbacks message =>
      simp only [settlementStep, handleEarnerSigned_settleBb]
      cases admitted : admitEarnerSigned compositor service.ledger message with
      | error outcome => rfl
      | ok entry =>
          cases wired : service.settleBb with
          | none => rfl
          | some log =>
              cases carried : message.envelope with
              | none => rfl
              | some env =>
                  have wide : ¬ FitsInt64 env.timestampNs := by
                    intro fits
                    exact nothing log env ⟨⟨entry, admitted⟩, wired, carried, fits⟩
                  simp only [absorbEnvelope, afterStore_overflow wide]

theorem keepsAgentCounts_iff (agentPubkey : String) (service : Service) (call : SettlementCall) :
    KeepsAgentCounts agentPubkey service.settleBb (settlementStep compositor service call).settleBb ↔
      ∀ log env, Absorbs crypto compositor service log env call →
        CountsAlready crypto agentPubkey log env := by
  by_cases absorbing : ∃ log env, Absorbs crypto compositor service log env call
  · rcases absorbing with ⟨log, env, absorbs⟩
    have same : ∀ other sent, Absorbs crypto compositor service other sent call →
        service.settleBb = some other ∧ other = log ∧ sent = env := by
      intro other sent also
      cases call with
      | submitEarned work => cases absorbs
      | payerCosigned message => cases absorbs
      | earnerSigned callbacks message =>
          exact ⟨also.2.1, Option.some.inj (also.2.1.symm.trans absorbs.2.1),
            Option.some.inj (also.2.2.1.symm.trans absorbs.2.2.1)⟩
    rw [settlementStep_absorbs compositor absorbs, (same log env absorbs).1,
      keepsAgentCounts_store_iff]
    constructor
    · intro counts other sent also
      rcases same other sent also with ⟨_, rfl, rfl⟩
      exact counts
    · intro all
      exact all log env absorbs
  · push Not at absorbing
    rw [settlementStep_settleBb compositor absorbing]
    exact ⟨fun _ log env absorbs => absurd absorbs (absorbing log env), fun _ _ => rfl⟩

/-- A message with an envelope the agent did not sign leaves every count of the
agent alone exactly when what it stores, if anything, was counted already. -/
theorem foreign_envelope_spares_budget_iff (agentPubkey : String) (service : Service)
    (call : SettlementCall) :
    (DeliversUnsigned crypto agentPubkey call →
        KeepsAgentCounts agentPubkey service.settleBb
          (settlementStep compositor service call).settleBb) ↔
      (DeliversUnsigned crypto agentPubkey call →
        ∀ log env, Absorbs crypto compositor service log env call →
          CountsAlready crypto agentPubkey log env) :=
  imp_congr_right fun _ => keepsAgentCounts_iff compositor agentPubkey service call

end Messages

/-- An envelope in the name of an agent that never signed it. -/
def unsignedEnvelope : ICPEnvelope :=
  { (Sample.envelope ["in"] "out" none).unsigned with
    agentPubkey := (Sample.compositor 3).pubkeyHex }

/-- The earner's own entry, with that envelope as its evidence. -/
def forgedDelivery : SettlementCall :=
  let claim := sampleClaim "entry-1" "work-1"
  .earnerSigned claim.1 { claim.2 with envelope := some unsignedEnvelope }

/-- The agent's count goes from none to one. -/
theorem forged_envelope_spends_budget :
    DeliversUnsigned Sample.crypto (Sample.compositor 3).pubkeyHex forgedDelivery ∧
      ¬ KeepsAgentCounts (Sample.compositor 3).pubkeyHex (some Table.empty)
        (settlementStep (Sample.compositor 1) { emptyService with settleBb := some Table.empty }
          forgedDelivery).settleBb := by
  constructor
  · refine ⟨_, unsignedEnvelope, rfl, rfl, ?_⟩
    intro signed
    have unverified : selfVerifies Sample.crypto unsignedEnvelope = false :=
      selfVerifies_unsigned unsignedEnvelope
    rw [signed.2] at unverified
    cases unverified
  · intro kept
    have counts : ((settlementStep (Sample.compositor 1)
          { emptyService with settleBb := some Table.empty } forgedDelivery).settleBb.map
        (fun log => log.rows.countP
          (EnvelopeRow.countsFor (Sample.compositor 3).pubkeyHex 0))) = some 1 := by
      decide +kernel
    have zero := kept 0
    cases stored : (settlementStep (Sample.compositor 1)
        { emptyService with settleBb := some Table.empty } forgedDelivery).settleBb with
    | none => simp [stored] at counts
    | some log =>
        rw [stored] at counts zero
        simp only [Option.map_some, Option.some.injEq] at counts zero
        simp only [countAgentEnvelopesSince, FitsInt64, counts] at zero
        simp [Table.empty] at zero

end Gyza

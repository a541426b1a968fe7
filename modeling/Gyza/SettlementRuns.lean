import Gyza.Settlement
import Gyza.SignedBytes

/-! What holds of the ledger over whole runs of the settlement service. -/

namespace Gyza

section Acceptance

variable {crypto : Crypto} (compositor : LocalCompositor crypto)

/-- No row under the entry's id is settled. -/
def Unsettled (ledger : LedgerTable) (entry : LedgerEntry) : Prop :=
  ∀ row, ledger.get? entry.entryId = some row → row.settled = false

def Storable (entry : LedgerEntry) : Prop := ∃ row, rowOf entry = .ok row

/-- Every check of `_handle_earner_signed` passes for the message. -/
structure PayerAccepts (service : Service) (callbacks : Callbacks) (message : IncomingMessage)
    (entry : LedgerEntry) : Prop where
  decoded : message.entry = some entry
  ours : entry.fromCompositor = compositor.pubkeyHex
  unsettled : Unsettled service.ledger entry
  signed : verifyEarnerSignature crypto entry = .ok none
  checked : protocolChecks callbacks
    (absorbEnvelope crypto service.settleBb message.envelope) entry = .ok ()
  harmless : (checkHarm callbacks { service with
    settleBb := absorbEnvelope crypto service.settleBb message.envelope } entry).1 = .ok ()
  storable : Storable entry

/-- Every check of `_handle_payer_cosigned` passes for the message. -/
structure EarnerAccepts (service : Service) (message : IncomingMessage) (entry : LedgerEntry) :
    Prop where
  decoded : message.entry = some entry
  ours : entry.toCompositor = compositor.pubkeyHex
  unsettled : Unsettled service.ledger entry
  signed : verifyEntry crypto entry = .ok none
  storable : Storable entry

end Acceptance

variable {crypto : Crypto} {compositor : LocalCompositor crypto}

theorem getEntry_any_settled (ledger : LedgerTable) (entry : LedgerEntry) :
    (getEntry ledger entry.entryId).any (·.settled) = false ↔ Unsettled ledger entry := by
  simp only [Unsettled, getEntry]
  cases ledger.get? entry.entryId with
  | none => simp
  | some row => simp [rowToEntry]

theorem checkHarm_ledger (callbacks : Callbacks) (service : Service) (entry : LedgerEntry) :
    (checkHarm callbacks service entry).2.ledger = service.ledger := by
  unfold checkHarm
  split
  · rfl
  · split
    · rfl
    · split_ifs <;> rfl

/-- The signatures and the settled flag play no part in whether a row can be written. -/
theorem storable_of_settles {ledger saved : LedgerTable} {entry signed : LedgerEntry}
    (settles : Settles crypto ledger entry signed saved) : Storable entry := by
  rcases settles.stored with ⟨row, written, _⟩
  rw [settles.unchanged] at written
  simp only [rowOf, bind, Except.bind, pure, Except.pure] at written
  simp only [Storable, rowOf, bind, Except.bind, pure, Except.pure]
  cases stored : storedAmount entry.amountCredits with
  | error error => simp [stored] at written
  | ok value =>
      simp only [stored] at written ⊢
      split_ifs at written ⊢
      exact ⟨_, rfl⟩

theorem admitEarnerSigned_ok {ledger : LedgerTable} {message : IncomingMessage}
    {entry : LedgerEntry} (admitted : admitEarnerSigned compositor ledger message = .ok entry) :
    message.entry = some entry ∧ entry.fromCompositor = compositor.pubkeyHex ∧
      Unsettled ledger entry ∧ verifyEarnerSignature crypto entry = .ok none := by
  unfold admitEarnerSigned at admitted
  split at admitted
  · cases admitted
  · rename_i candidate decoded
    split_ifs at admitted with misrouted settled
    split at admitted
    · cases admitted
    · cases admitted
    · rename_i verified
      cases admitted
      refine ⟨decoded, not_not.mp misrouted, ?_, verified⟩
      rw [← getEntry_any_settled]
      simpa using settled

/-- A message changes the payer's ledger only by settling an entry that passed every check. -/
theorem handleEarnerSigned_ledger (service : Service) (callbacks : Callbacks)
    (message : IncomingMessage) :
    (handleEarnerSigned compositor service callbacks message).2.ledger = service.ledger ∨
      ∃ entry signed, PayerAccepts compositor service callbacks message entry ∧
        Settles crypto service.ledger entry signed
          (handleEarnerSigned compositor service callbacks message).2.ledger := by
  simp only [handleEarnerSigned]
  split
  · exact Or.inl rfl
  · rename_i entry admitted
    rcases admitEarnerSigned_ok admitted with ⟨decoded, ours, unsettled, signed⟩
    split
    · exact Or.inl rfl
    · rename_i checked
      split
      · rename_i outcome refused harm
        left
        have kept := checkHarm_ledger callbacks { service with
          settleBb := absorbEnvelope crypto service.settleBb message.envelope } entry
        rw [harm] at kept
        exact kept
      · rename_i recorded harm
        have kept := checkHarm_ledger callbacks { service with
          settleBb := absorbEnvelope crypto service.settleBb message.envelope } entry
        rw [harm] at kept
        split
        · exact Or.inl kept
        · rename_i cosigned saved done
          right
          have settles := (signAsPayer_ok done).2
          simp only at kept
          rw [kept] at settles
          exact ⟨entry, cosigned, ⟨decoded, ours, unsettled, signed, checked, by rw [harm],
            storable_of_settles settles⟩, settles⟩

theorem handlePayerCosigned_ledger (service : Service) (message : IncomingMessage) :
    (handlePayerCosigned compositor service message).2.ledger = service.ledger ∨
      ∃ entry signed, EarnerAccepts compositor service message entry ∧
        Settles crypto service.ledger entry signed
          (handlePayerCosigned compositor service message).2.ledger := by
  simp only [handlePayerCosigned]
  split
  · exact Or.inl rfl
  · rename_i entry decoded
    split_ifs with misrouted settled
    · exact Or.inl rfl
    · exact Or.inl rfl
    · have unsettled : Unsettled service.ledger entry := by
        rw [← getEntry_any_settled]
        simpa using settled
      split
      · rename_i applied saved done
        rcases applyCosignedEntry_ok done with ⟨signed, settles⟩
        have accepts : EarnerAccepts compositor service message entry :=
          ⟨decoded, not_not.mp misrouted, unsettled, signed, storable_of_settles settles⟩
        right
        split <;> exact ⟨entry, applied, accepts, settles⟩
      · left
        split_ifs
        · split <;> rfl
        · rfl

/-- Submitting writes one row, and writes it unsettled. -/
theorem submitEarned_ledger {service next : Service} {work : EarnedWork} {entry : LedgerEntry}
    (done : submitEarned compositor service work = .ok (entry, next)) :
    ∃ row, row.settled = false ∧
      next.ledger = service.ledger.upsert mergeSignatures mergeSignatures_entryId row := by
  simp only [submitEarned, bind, Except.bind, pure, Except.pure] at done
  split at done
  · cases done
  · split at done
    · cases done
    · rename_i created
      split at done
      · cases done
      · rename_i result signed
        cases done
        rcases signAsEarner_ok signed with ⟨unsettled, row, written, saved⟩
        rcases rowOf_ok written with ⟨value, _, read⟩
        have flag : row.settled = result.1.settled := congrArg LedgerEntry.settled read
        exact ⟨row, flag.trans (unsettled.trans (createEntry_unsettled created)), saved⟩

/-! Settled rows re-verify. -/

def SettledVerifies (crypto : Crypto) (ledger : LedgerTable) : Prop :=
  ∀ row ∈ ledger.rows, row.settled = true → verifyEntry crypto (rowToEntry row) = .ok none

instance (ledger : LedgerTable) : Decidable (SettledVerifies crypto ledger) :=
  inferInstanceAs (Decidable (∀ row ∈ ledger.rows, _))

/-- The stored row and the entry name the same keys and have the same joined bytes. -/
structure SameSigned (row : LedgerRow) (entry : LedgerEntry) : Prop where
  payer : Hex.fromhex row.fromCompositor = Hex.fromhex entry.fromCompositor
  earner : Hex.fromhex row.toCompositor = Hex.fromhex entry.toCompositor
  preimage : ∀ role, signPreimage (rowToEntry row) role = signPreimage entry role

instance (row : LedgerRow) (entry : LedgerEntry) : Decidable (SameSigned row entry) :=
  decidable_of_iff
    (Hex.fromhex row.fromCompositor = Hex.fromhex entry.fromCompositor ∧
      Hex.fromhex row.toCompositor = Hex.fromhex entry.toCompositor ∧
      signPreimage (rowToEntry row) .payer = signPreimage entry .payer ∧
      signPreimage (rowToEntry row) .earner = signPreimage entry .earner)
    ⟨fun ⟨payer, earner, first, second⟩ => ⟨payer, earner, fun role => by cases role <;> assumption⟩,
      fun same => ⟨same.payer, same.earner, same.preimage .payer, same.preimage .earner⟩⟩

/-- A row already stored under the entry's id, if any, agrees with the entry. -/
def MergesCleanly (ledger : LedgerTable) (entry : LedgerEntry) : Prop :=
  ∀ row, ledger.get? entry.entryId = some row → SameSigned row entry

theorem roleSigned_congr {entry other : LedgerEntry} {role : Role} {sigHex key key' : String}
    (keys : Hex.fromhex key' = Hex.fromhex key)
    (preimages : signPreimage other role = signPreimage entry role)
    (signed : RoleSigned crypto entry role sigHex key) : RoleSigned crypto other role sigHex key' := by
  unfold RoleSigned at signed ⊢
  rwa [keys, preimages]

/-- A freshly written row verifies as the entry did. -/
theorem row_verifies {signed : LedgerEntry} {row : LedgerRow}
    (accepted : verifyEntry crypto signed = .ok none) (written : rowOf signed = .ok row) :
    verifyEntry crypto (rowToEntry row) = .ok none := by
  rw [verifyEntry_accepts] at accepted ⊢
  rcases rowOf_ok written with ⟨value, _, read⟩
  rcases accepted with ⟨payer, earner⟩
  have same : ∀ role sigHex key, RoleSigned crypto signed role sigHex key →
      RoleSigned crypto (rowToEntry row) role sigHex key := by
    intro role sigHex key roleSigned
    rcases id roleSigned with ⟨_, _, preimage, _, _, _, _, signable, _⟩
    exact roleSigned_congr rfl
      ((signPreimage_row written signable).trans signable.symm) roleSigned
  have payerRow := same _ _ _ payer
  have earnerRow := same _ _ _ earner
  rw [read] at payerRow earnerRow ⊢
  exact ⟨payerRow, earnerRow⟩

/-- So does an old row that agrees with the entry, under its new signatures. -/
theorem merged_row_verifies {signed : LedgerEntry} {old row : LedgerRow}
    (accepted : verifyEntry crypto signed = .ok none) (written : rowOf signed = .ok row)
    (agrees : SameSigned old signed) :
    verifyEntry crypto (rowToEntry (mergeSignatures old row)) = .ok none := by
  rw [verifyEntry_accepts] at accepted ⊢
  rcases rowOf_ok written with ⟨value, _, read⟩
  have payerSig : row.fromSignature = signed.fromSignature :=
    congrArg LedgerEntry.fromSignature read
  have earnerSig : row.toSignature = signed.toSignature := congrArg LedgerEntry.toSignature read
  rcases accepted with ⟨payer, earner⟩
  constructor
  · have merged := roleSigned_congr agrees.payer (agrees.preimage .payer) payer
    rw [← payerSig] at merged
    exact merged
  · have merged := roleSigned_congr agrees.earner (agrees.preimage .earner) earner
    rw [← earnerSig] at merged
    exact merged

theorem settles_verifies {ledger saved : LedgerTable} {entry signed : LedgerEntry}
    (holds : SettledVerifies crypto ledger) (settles : Settles crypto ledger entry signed saved)
    (clean : MergesCleanly ledger entry) : SettledVerifies crypto saved := by
  rcases settles.stored with ⟨row, written, rfl⟩
  have id : row.entryId = entry.entryId := by
    rw [rowOf_entryId written, settles.unchanged]
  intro stored member settled
  rcases (Table.mem_upsert _ _ _ _ _).mp member with ⟨kept, _⟩ | rfl
  · exact holds stored kept settled
  · cases present : ledger.get? row.entryId with
    | none => exact row_verifies settles.accepted written
    | some old =>
        apply merged_row_verifies settles.accepted written
        have agrees := clean old (by rw [← id, present])
        rw [settles.unchanged]
        exact ⟨agrees.payer, agrees.earner, agrees.preimage⟩

theorem submit_verifies {service next : Service} {work : EarnedWork} {entry : LedgerEntry}
    (holds : SettledVerifies crypto service.ledger)
    (done : submitEarned compositor service work = .ok (entry, next)) :
    SettledVerifies crypto next.ledger := by
  rcases submitEarned_ledger done with ⟨row, unsettled, saved⟩
  rw [saved]
  intro stored member settled
  rcases (Table.mem_upsert _ _ _ _ _).mp member with ⟨kept, _⟩ | rfl
  · exact holds stored kept settled
  · have flag : (((service.ledger.get? row.entryId).map
        (fun old => mergeSignatures old row)).getD row).settled = false := by
      cases service.ledger.get? row.entryId with
      | none => exact unsettled
      | some old => exact unsettled
    rw [flag] at settled
    cases settled

/-- A call may settle onto a stored row only if that row agrees with the entry it accepts. -/
def CleanCall (compositor : LocalCompositor crypto) (service : Service) : SettlementCall → Prop
  | .submitEarned _ => True
  | .earnerSigned callbacks message => ∀ entry,
      PayerAccepts compositor service callbacks message entry → MergesCleanly service.ledger entry
  | .payerCosigned message => ∀ entry,
      EarnerAccepts compositor service message entry → MergesCleanly service.ledger entry

theorem settlementStep_verifies (service : Service) (call : SettlementCall)
    (holds : SettledVerifies crypto service.ledger) (clean : CleanCall compositor service call) :
    SettledVerifies crypto (settlementStep compositor service call).ledger := by
  cases call with
  | submitEarned work =>
      simp only [settlementStep]
      split
      · rename_i done
        exact submit_verifies holds done
      · exact holds
  | earnerSigned callbacks message =>
      rcases @handleEarnerSigned_ledger crypto compositor service callbacks message with
        kept | ⟨entry, signed, accepts, settles⟩
      · simp only [settlementStep, kept]
        exact holds
      · exact settles_verifies holds settles (clean entry accepts)
  | payerCosigned message =>
      rcases @handlePayerCosigned_ledger crypto compositor service message with
        kept | ⟨entry, signed, accepts, settles⟩
      · simp only [settlementStep, kept]
        exact holds
      · exact settles_verifies holds settles (clean entry accepts)

/-- `sampleEntry`, as the second sample node submits it to the first. -/
def sampleWork : EarnedWork where
  payerCompositor := (Sample.compositor 1).pubkeyHex
  workItemId := "work-1"
  icpEnvelopeHash := "ab12"
  modelIdentifier := "mock"
  tokensOut := 100
  durationMs := 2000
  amount := none
  entryId := "entry-1"
  now := 1000

def emptyService : Service where
  ledger := Table.empty
  settleBb := none
  harmRecords := []

/-- The submission, then an echo of it cosigned with the key of the given seed. -/
def submitThenEcho (seed : UInt8) : List SettlementCall :=
  [.submitEarned sampleWork,
    .payerCosigned {
      entry := (cosign (Sample.compositor seed) (Sample.compositor 2) sampleEntry).toOption
      envelope := none
      senderPeerId := "peer" }]

/-- No two settled rows are for one `(work_item_id, icp_envelope_hash)`. -/
def PaidOnce (ledger : LedgerTable) : Prop :=
  ∀ row ∈ ledger.rows, ∀ other ∈ ledger.rows, row.settled = true → other.settled = true →
    row.workItemId = other.workItemId → row.icpEnvelopeHash = other.icpEnvelopeHash → row = other

instance (ledger : LedgerTable) : Decidable (PaidOnce ledger) :=
  inferInstanceAs (Decidable (∀ row ∈ ledger.rows, _))

/-- The work the row of an accepted entry is for: a row already stored under its id keeps its own. -/
def settledWork (ledger : LedgerTable) (entry : LedgerEntry) : String × String :=
  match ledger.get? entry.entryId with
  | some row => (row.workItemId, row.icpEnvelopeHash)
  | none => (entry.workItemId, entry.icpEnvelopeHash)

/-- A message that passes every check is for work no settled row is for. -/
def FreshWork (compositor : LocalCompositor crypto) (service : Service)
    (call : Callbacks × IncomingMessage) : Prop :=
  ∀ entry, PayerAccepts compositor service call.1 call.2 entry →
    ∀ row ∈ service.ledger.rows, row.settled = true →
      (row.workItemId, row.icpEnvelopeHash) ≠ settledWork service.ledger entry

def payerStep (compositor : LocalCompositor crypto) (service : Service)
    (call : Callbacks × IncomingMessage) : Service :=
  (handleEarnerSigned compositor service call.1 call.2).2

theorem settles_paidOnce {ledger saved : LedgerTable} {entry signed : LedgerEntry}
    (holds : PaidOnce ledger) (settles : Settles crypto ledger entry signed saved)
    (fresh : ∀ row ∈ ledger.rows, row.settled = true →
      (row.workItemId, row.icpEnvelopeHash) ≠ settledWork ledger entry) :
    PaidOnce saved := by
  rcases settles.stored with ⟨row, written, rfl⟩
  have id : row.entryId = entry.entryId := by
    rw [rowOf_entryId written, settles.unchanged]
  obtain ⟨added, addedIs⟩ : ∃ added, added =
      ((ledger.get? row.entryId).map (fun old => mergeSignatures old row)).getD row := ⟨_, rfl⟩
  have work : (added.workItemId, added.icpEnvelopeHash) = settledWork ledger entry := by
    rcases rowOf_ok written with ⟨value, _, read⟩
    rw [addedIs, id, settledWork]
    cases ledger.get? entry.entryId with
    | none =>
        have item : row.workItemId = signed.workItemId := congrArg LedgerEntry.workItemId read
        have hash : row.icpEnvelopeHash = signed.icpEnvelopeHash :=
          congrArg LedgerEntry.icpEnvelopeHash read
        simp only [Option.map_none, Option.getD_none, item, hash]
        rw [settles.unchanged]
    | some old => rfl
  have clash : ∀ stored ∈ ledger.rows, stored.settled = true →
      stored.workItemId = added.workItemId → stored.icpEnvelopeHash = added.icpEnvelopeHash →
        False := by
    intro stored member settled item hash
    apply fresh stored member settled
    rw [← work, item, hash]
  intro first firstMember second secondMember firstSettled secondSettled item hash
  rw [Table.mem_upsert, ← addedIs] at firstMember secondMember
  rcases firstMember with ⟨firstKept, _⟩ | rfl
  · rcases secondMember with ⟨secondKept, _⟩ | rfl
    · exact holds first firstKept second secondKept firstSettled secondSettled item hash
    · exact absurd hash (fun hash => clash first firstKept firstSettled item hash)
  · rcases secondMember with ⟨secondKept, _⟩ | same
    · exact absurd hash (fun hash => clash second secondKept secondSettled item.symm hash.symm)
    · exact same.symm

theorem payerStep_paidOnce (service : Service) (call : Callbacks × IncomingMessage)
    (holds : PaidOnce service.ledger) (fresh : FreshWork compositor service call) :
    PaidOnce (payerStep compositor service call).ledger := by
  rcases @handleEarnerSigned_ledger crypto compositor service call.1 call.2 with
    kept | ⟨entry, signed, accepts, settles⟩
  · simp only [payerStep, kept]
    exact holds
  · exact settles_paidOnce holds settles (fresh entry accepts)

/-- In every state of a run of messages that are for fresh work, work is paid once. -/
theorem work_paid_once (compositor : LocalCompositor crypto) (service : Service)
    (start : PaidOnce service.ledger) (messages : List (Callbacks × IncomingMessage))
    (fresh : Run.Admissible (payerStep compositor) (FreshWork compositor) service messages)
    (n : Nat) :
    PaidOnce (Run.run (payerStep compositor) service (messages.take n)).ledger := by
  rw [← List.take_append_drop n messages, Run.admissible_append] at fresh
  exact Run.invariant_run (payerStep compositor) (FreshWork compositor)
    (fun service => PaidOnce service.ledger) payerStep_paidOnce _ _ start fresh.1

/-- The earner's claim on the first sample node, under the given id and work item. -/
def sampleClaim (entryId workItemId : String) : Callbacks × IncomingMessage :=
  ({ resolveEnvelope := fun _ => .ok (some "ab12")
     acceptancePolicy := none
     harmGuard := none
     harmEnforce := false
     now := 2000 },
    { entry := (signAsEarner (Sample.compositor 2) Table.empty { sampleEntry with
        entryId := entryId
        workItemId := workItemId
        fromCompositor := (Sample.compositor 1).pubkeyHex
        toCompositor := (Sample.compositor 2).pubkeyHex }).toOption.map Prod.fst
      envelope := none
      senderPeerId := "peer" })

theorem work_paid_once_sample :
    PaidOnce (Run.run (payerStep (Sample.compositor 1)) emptyService
      ([sampleClaim "entry-1" "work-1", sampleClaim "entry-2" "work-2"].take 2)).ledger := by
  apply work_paid_once (Sample.compositor 1) emptyService (by decide)
  refine ⟨?_, ?_, trivial⟩
  · intro entry _ row member
    cases member
  · have other : ((sampleClaim "entry-2" "work-2").2.entry.all (fun entry =>
        decide (∀ row ∈ (payerStep (Sample.compositor 1) emptyService
          (sampleClaim "entry-1" "work-1")).ledger.rows, row.settled = true →
            (row.workItemId, row.icpEnvelopeHash) ≠ settledWork (payerStep (Sample.compositor 1)
              emptyService (sampleClaim "entry-1" "work-1")).ledger entry))) = true := by
      decide +kernel
    intro entry accepts
    rw [accepts.decoded, Option.all_some, decide_eq_true_eq] at other
    exact other

/-- A retry under a fresh id is paid a second time. -/
theorem work_paid_twice :
    ¬ PaidOnce (Run.run (payerStep (Sample.compositor 1)) emptyService
      [sampleClaim "entry-1" "work-1", sampleClaim "entry-2" "work-1"]).ledger := by
  decide +kernel

end Gyza

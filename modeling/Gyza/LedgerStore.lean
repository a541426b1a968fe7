import Gyza.Ledger

/-! Persistence and signing of ledger entries (`ComputeLedger`).

`balance_cache` is left out: it is written after a settlement and no modelled
function reads it. -/

namespace Gyza

open Hex (Bytes)

inductive LedgerError where
  | amount (error : AmountError)
  | selfPay
  | notEarner
  | notPayer
  | earnerMustSignFirst
  | earnerSignatureInvalid (reason : SignatureReason)
  | unverifiable (reason : EntryReason)
  | bindOverflow
  | notNull
  deriving DecidableEq

/-- The exceptions an `except ValueError` clause catches. -/
def LedgerError.isValueError : LedgerError → Bool
  | .amount .overflow => false
  | .bindOverflow => false
  | .notNull => false
  | _ => true

structure LedgerRow where
  entryId : String
  fromCompositor : String
  toCompositor : String
  amountCredits : Float
  workItemId : String
  icpEnvelopeHash : String
  modelIdentifier : String
  tokensOut : Int
  durationMs : Int
  createdAtNs : Int
  fromSignature : String
  toSignature : String
  settled : Bool
  deriving DecidableEq

def rowToEntry (row : LedgerRow) : LedgerEntry where
  entryId := row.entryId
  fromCompositor := row.fromCompositor
  toCompositor := row.toCompositor
  amountCredits := .real row.amountCredits
  workItemId := row.workItemId
  icpEnvelopeHash := row.icpEnvelopeHash
  modelIdentifier := row.modelIdentifier
  tokensOut := row.tokensOut
  durationMs := row.durationMs
  createdAtNs := row.createdAtNs
  fromSignature := row.fromSignature
  toSignature := row.toSignature
  settled := row.settled

/-- The value a `REAL NOT NULL` column holds after the amount is bound to it.
SQLite stores NaN as NULL. -/
def storedAmount : Amount → Except LedgerError Float
  | .real value => if value.isNaN then .error .notNull else .ok value
  | .whole value =>
      if FitsInt64 value then
        match Decimal.floatOfInt value with
        | some converted => .ok converted
        | none => .error .bindOverflow
      else .error .bindOverflow
  | .bool value => .ok (if value then 1 else 0)
  | .other _ => .error .notNull

def rowOf (entry : LedgerEntry) : Except LedgerError LedgerRow := do
  let amount ← storedAmount entry.amountCredits
  if FitsInt64 entry.tokensOut ∧ FitsInt64 entry.durationMs ∧ FitsInt64 entry.createdAtNs then
    pure {
      entryId := entry.entryId
      fromCompositor := entry.fromCompositor
      toCompositor := entry.toCompositor
      amountCredits := amount
      workItemId := entry.workItemId
      icpEnvelopeHash := entry.icpEnvelopeHash
      modelIdentifier := entry.modelIdentifier
      tokensOut := entry.tokensOut
      durationMs := entry.durationMs
      createdAtNs := entry.createdAtNs
      fromSignature := entry.fromSignature
      toSignature := entry.toSignature
      settled := entry.settled }
  else throw .bindOverflow

abbrev LedgerTable := Table LedgerRow.entryId

/-- `ON CONFLICT(entry_id) DO UPDATE SET from_signature, to_signature, settled`. -/
def mergeSignatures (old new : LedgerRow) : LedgerRow :=
  { old with
    fromSignature := new.fromSignature
    toSignature := new.toSignature
    settled := new.settled }

theorem mergeSignatures_entryId (old new : LedgerRow) :
    (mergeSignatures old new).entryId = old.entryId := rfl

def saveEntry (ledger : LedgerTable) (entry : LedgerEntry) : Except LedgerError LedgerTable := do
  let row ← rowOf entry
  pure (ledger.upsert mergeSignatures mergeSignatures_entryId row)

def getEntry (ledger : LedgerTable) (entryId : String) : Option LedgerEntry :=
  (ledger.get? entryId).map rowToEntry

/-- `ORDER BY created_at_ns ASC`, rows of equal time in the order they are scanned. -/
def orderByCreated (rows : List LedgerRow) : List LedgerRow :=
  rows.insertionSort (fun first second => first.createdAtNs ≤ second.createdAtNs)

def allEntries (ledger : LedgerTable) : List LedgerEntry :=
  (orderByCreated ledger.rows).map rowToEntry

/-- The order in which a query that uses two indexes visits the rows of a peer.
The store promises no order among rows of equal time, so it is left open. -/
structure ScanOrder where
  scan : String → List LedgerRow → List LedgerRow
  scan_perm : ∀ peer rows, (scan peer rows).Perm rows

def exportStatement (order : ScanOrder) (ledger : LedgerTable) (peerCompositor : String) :
    List LedgerEntry :=
  (orderByCreated (order.scan peerCompositor (ledger.rows.filter (fun row =>
    row.fromCompositor = peerCompositor ∨ row.toCompositor = peerCompositor)))).map rowToEntry

theorem exportStatement_distinct (order : ScanOrder) (ledger : LedgerTable)
    (peerCompositor : String) :
    ((exportStatement order ledger peerCompositor).map LedgerEntry.entryId).Nodup := by
  have keyed : LedgerEntry.entryId ∘ rowToEntry = LedgerRow.entryId := rfl
  rw [exportStatement, List.map_map, keyed, orderByCreated]
  apply (((List.perm_insertionSort _ _).trans (order.scan_perm _ _)).map _).nodup_iff.mpr
  exact ledger.distinct.sublist (List.filter_sublist.map _)

section Signing

variable {crypto : Crypto} (compositor : LocalCompositor crypto)

def createEntry (entryId fromCompositor toCompositor : String) (amount : Amount)
    (workItemId icpEnvelopeHash modelIdentifier : String) (tokensOut durationMs now : Int) :
    Except LedgerError LedgerEntry := do
  (requireSignableAmount amount).mapError LedgerError.amount
  if fromCompositor = toCompositor then throw .selfPay
  pure {
    entryId := entryId
    fromCompositor := fromCompositor
    toCompositor := toCompositor
    amountCredits := amount
    workItemId := workItemId
    icpEnvelopeHash := icpEnvelopeHash
    modelIdentifier := modelIdentifier
    tokensOut := tokensOut
    durationMs := durationMs
    createdAtNs := now }

def signAsEarner (ledger : LedgerTable) (entry : LedgerEntry) :
    Except LedgerError (LedgerEntry × LedgerTable) := do
  if compositor.pubkeyHex ≠ entry.toCompositor then throw .notEarner
  let digest ← (canonicalSignBytes crypto entry .earner).mapError LedgerError.amount
  let signed := { entry with toSignature := compositor.sign digest }
  let saved ← saveEntry ledger signed
  pure (signed, saved)

def signAsPayer (ledger : LedgerTable) (entry : LedgerEntry) :
    Except LedgerError (LedgerEntry × LedgerTable) := do
  if compositor.pubkeyHex ≠ entry.fromCompositor then throw .notPayer
  if entry.toSignature = "" then throw .earnerMustSignFirst
  match ← (verifyEarnerSignature crypto entry).mapError LedgerError.amount with
  | some reason => throw (.earnerSignatureInvalid reason)
  | none =>
      let digest ← (canonicalSignBytes crypto entry .payer).mapError LedgerError.amount
      let signed := { entry with fromSignature := compositor.sign digest, settled := true }
      let saved ← saveEntry ledger signed
      pure (signed, saved)

variable (crypto) in
def applyCosignedEntry (ledger : LedgerTable) (entry : LedgerEntry) :
    Except LedgerError (LedgerEntry × LedgerTable) := do
  match ← (verifyEntry crypto entry).mapError LedgerError.amount with
  | some reason => throw (.unverifiable reason)
  | none =>
      let settled := { entry with settled := true }
      let saved ← saveEntry ledger settled
      pure (settled, saved)

end Signing

/-! What the stored row keeps of a signed entry. -/

theorem signableText_real {value : Float} (finite : value.isFinite = true) (above : 0 ≤ value) :
    signableText (.real value) = .ok (Decimal.fixed6 value) := by
  simp [signableText, requireSignableAmount, amountCanonical, Amount.toFloat, finite, above, bind,
    Except.bind, pure, Except.pure]

theorem signableText_stored {amount : Amount} {text : String} {value : Float}
    (signable : signableText amount = .ok text) (stored : storedAmount amount = .ok value) :
    signableText (.real value) = .ok text := by
  cases amount with
  | real amount =>
      simp only [storedAmount] at stored
      split_ifs at stored
      cases stored
      exact signable
  | whole amount =>
      simp only [storedAmount] at stored
      split_ifs at stored with fits
      cases converted : Decimal.floatOfInt amount with
      | none => simp [converted] at stored
      | some rounded =>
          simp only [converted, Except.ok.injEq] at stored
          subst stored
          simp only [signableText, requireSignableAmount, amountCanonical, Amount.toFloat, converted,
            bind, Except.bind, pure, Except.pure] at signable
          split_ifs at signable with above
          cases signable
          exact signableText_real (Decimal.floatOfInt_finite amount rounded converted)
            (Decimal.floatOfInt_nonnegative amount rounded above converted)
  | bool amount => cases signable
  | other typeName => cases signable

/-- The columns written for an entry, with its amount as the store keeps it. -/
theorem rowOf_ok {entry : LedgerEntry} {row : LedgerRow} (written : rowOf entry = .ok row) :
    ∃ value, storedAmount entry.amountCredits = .ok value ∧
      rowToEntry row = { entry with amountCredits := .real value } := by
  simp only [rowOf, bind, Except.bind, pure, Except.pure] at written
  cases stored : storedAmount entry.amountCredits with
  | error error => simp [stored] at written
  | ok value =>
      simp only [stored] at written
      split_ifs at written
      cases written
      exact ⟨value, rfl, rfl⟩

theorem rowOf_entryId {entry : LedgerEntry} {row : LedgerRow} (written : rowOf entry = .ok row) :
    row.entryId = entry.entryId := by
  rcases rowOf_ok written with ⟨value, _, read⟩
  exact congrArg LedgerEntry.entryId read

theorem signPreimage_row {entry : LedgerEntry} {row : LedgerRow} {role : Role} {preimage : Bytes}
    (written : rowOf entry = .ok row) (signable : signPreimage entry role = .ok preimage) :
    signPreimage (rowToEntry row) role = .ok preimage := by
  rcases rowOf_ok written with ⟨value, stored, read⟩
  rw [read]
  simp only [signPreimage, bind, Except.bind, pure, Except.pure] at signable ⊢
  cases text : signableText entry.amountCredits with
  | error error => simp [text] at signable
  | ok amount =>
      rw [signableText_stored text stored]
      rw [text] at signable
      exact signable

theorem saveEntry_ok {ledger saved : LedgerTable} {entry : LedgerEntry}
    (done : saveEntry ledger entry = .ok saved) :
    ∃ row, rowOf entry = .ok row ∧
      saved = ledger.upsert mergeSignatures mergeSignatures_entryId row := by
  simp only [saveEntry, bind, Except.bind, pure, Except.pure] at done
  cases written : rowOf entry with
  | error error => simp [written] at done
  | ok row =>
      simp only [written, Except.ok.injEq] at done
      exact ⟨row, rfl, done.symm⟩

section Specifications

variable {crypto : Crypto} {compositor : LocalCompositor crypto}

/-- One call that settles: the entry it accepted, and the one row it wrote. -/
structure Settles (crypto : Crypto) (ledger : LedgerTable) (entry signed : LedgerEntry)
    (saved : LedgerTable) : Prop where
  accepted : verifyEntry crypto signed = .ok none
  unchanged : signed = { entry with fromSignature := signed.fromSignature, settled := true }
  stored : ∃ row, rowOf signed = .ok row ∧
    saved = ledger.upsert mergeSignatures mergeSignatures_entryId row

theorem roleSigned_by_compositor (compositor : LocalCompositor crypto) {entry : LedgerEntry} {role : Role} {preimage : Bytes}
    (signable : signPreimage entry role = .ok preimage) :
    RoleSigned crypto entry role (compositor.sign (crypto.blake3 preimage))
      compositor.pubkeyHex :=
  ⟨compositor.publicBytes, compositor.signBytes (crypto.blake3 preimage), preimage,
    Hex.fromhex_encode _, Hex.fromhex_encode _, compositor.publicBytes_length,
    compositor.signBytes_length _, signable, compositor.signBytes_verifies _⟩

/-- The payer's digest exists whenever the earner's does: only the role differs. -/
theorem signPreimage_any_role {entry : LedgerEntry} {role : Role} {preimage : Bytes}
    (signable : signPreimage entry role = .ok preimage) (other : Role) :
    ∃ bytes, signPreimage entry other = .ok bytes := by
  simp only [signPreimage, bind, Except.bind, pure, Except.pure] at signable ⊢
  cases text : signableText entry.amountCredits with
  | error error => simp [text] at signable
  | ok amount => exact ⟨_, rfl⟩

theorem signAsPayer_ok {ledger saved : LedgerTable} {entry signed : LedgerEntry}
    (done : signAsPayer compositor ledger entry = .ok (signed, saved)) :
    compositor.pubkeyHex = entry.fromCompositor ∧ Settles crypto ledger entry signed saved := by
  simp only [signAsPayer, bind, Except.bind, pure, Except.pure, throw, throwThe,
    MonadExceptOf.throw] at done
  split_ifs at done with notPayer noSignature
  cases earner : verifyEarnerSignature crypto entry with
  | error error => simp [earner, Except.mapError] at done
  | ok reason =>
      cases reason with
      | some reason => simp [earner, Except.mapError] at done
      | none =>
          have earnerSigned := (verifyEarnerSignature_accepts entry).mp earner
          rcases id earnerSigned with ⟨_, _, preimage, _, _, _, _, signable, _⟩
          rcases signPreimage_any_role signable .payer with ⟨bytes, payerSignable⟩
          simp only [earner, Except.mapError, canonicalSignBytes_ok payerSignable] at done
          split at done
          · cases done
          · rename_i table stored
            simp only [Except.ok.injEq, Prod.mk.injEq] at done
            rcases done with ⟨rfl, rfl⟩
            have owner : compositor.pubkeyHex = entry.fromCompositor := not_not.mp notPayer
            have payerSigned := roleSigned_by_compositor compositor payerSignable
            refine ⟨owner, ?_, rfl, saveEntry_ok stored⟩
            rw [owner] at payerSigned
            exact (verifyEntry_accepts _).mpr ⟨payerSigned, earnerSigned⟩

theorem applyCosignedEntry_ok {ledger saved : LedgerTable} {entry signed : LedgerEntry}
    (done : applyCosignedEntry crypto ledger entry = .ok (signed, saved)) :
    verifyEntry crypto entry = .ok none ∧ Settles crypto ledger entry signed saved := by
  simp only [applyCosignedEntry, bind, Except.bind, pure, Except.pure, throw, throwThe,
    MonadExceptOf.throw] at done
  cases verified : verifyEntry crypto entry with
  | error error => simp [verified, Except.mapError] at done
  | ok reason =>
      cases reason with
      | some reason => simp [verified, Except.mapError] at done
      | none =>
          simp only [verified, Except.mapError] at done
          split at done
          · cases done
          · rename_i table stored
            simp only [Except.ok.injEq, Prod.mk.injEq] at done
            rcases done with ⟨rfl, rfl⟩
            refine ⟨rfl, ?_, rfl, saveEntry_ok stored⟩
            exact (verifyEntry_accepts _).mpr ((verifyEntry_accepts entry).mp verified)

theorem createEntry_unsettled {entryId fromCompositor toCompositor workItemId icpEnvelopeHash
    modelIdentifier : String} {amount : Amount} {tokensOut durationMs now : Int}
    {entry : LedgerEntry}
    (created : createEntry entryId fromCompositor toCompositor amount workItemId icpEnvelopeHash
      modelIdentifier tokensOut durationMs now = .ok entry) : entry.settled = false := by
  simp only [createEntry, bind, Except.bind, pure, Except.pure, throw, throwThe,
    MonadExceptOf.throw] at created
  split at created
  · cases created
  · split_ifs at created
    cases created
    rfl

/-- The earner's own pass leaves the row it writes unsettled. -/
theorem signAsEarner_ok {ledger saved : LedgerTable} {entry signed : LedgerEntry}
    (done : signAsEarner compositor ledger entry = .ok (signed, saved)) :
    signed.settled = entry.settled ∧ ∃ row, rowOf signed = .ok row ∧
      saved = ledger.upsert mergeSignatures mergeSignatures_entryId row := by
  simp only [signAsEarner, bind, Except.bind, pure, Except.pure, throw, throwThe,
    MonadExceptOf.throw] at done
  split_ifs at done with notEarner
  cases digest : canonicalSignBytes crypto entry .earner with
  | error error => simp [digest, Except.mapError] at done
  | ok bytes =>
      simp only [digest, Except.mapError] at done
      split at done
      · cases done
      · rename_i table stored
        simp only [Except.ok.injEq, Prod.mk.injEq] at done
        rcases done with ⟨rfl, rfl⟩
        exact ⟨rfl, saveEntry_ok stored⟩

end Specifications

end Gyza

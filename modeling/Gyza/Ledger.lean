import Gyza.Crypto
import Gyza.Lib.Decimal
import Gyza.Lib.Table

/-! The bilateral compute-credit ledger (`gyza/economy/ledger.py`). -/

namespace Gyza

open Hex (Bytes utf8)

/-- What JSON can put in `amount_credits`; everything but a number is kept as
the name of its type, which is all the code reads of it. -/
inductive Amount where
  | real (value : Float)
  | whole (value : Int)
  | bool (value : Bool)
  | other (typeName : String)
  deriving DecidableEq

/-- Only `overflow` is not a `ValueError`, so only it escapes a verifier. -/
inductive AmountError where
  | notRealNumber (typeName : String)
  | notFiniteNonNegative (amount : Amount)
  | overflow
  deriving DecidableEq

structure LedgerEntry where
  entryId : String
  fromCompositor : String
  toCompositor : String
  amountCredits : Amount
  workItemId : String
  icpEnvelopeHash : String
  modelIdentifier : String
  tokensOut : Int
  durationMs : Int
  createdAtNs : Int
  fromSignature : String := ""
  toSignature : String := ""
  settled : Bool := false
  deriving DecidableEq

inductive Role where
  | payer
  | earner
  deriving DecidableEq

def Role.text : Role → String
  | .payer => "payer"
  | .earner => "earner"

/-- The float an amount becomes when it is formatted or compared with one. -/
def Amount.toFloat : Amount → Except AmountError Float
  | .real value => .ok value
  | .whole value =>
      match Decimal.floatOfInt value with
      | some converted => .ok converted
      | none => .error .overflow
  | .bool value => .ok (if value then 1 else 0)
  | .other typeName => .error (.notRealNumber typeName)

def requireSignableAmount : Amount → Except AmountError Unit
  | .bool _ => .error (.notRealNumber "bool")
  | .other typeName => .error (.notRealNumber typeName)
  | .whole value => do
      -- `math.isfinite` converts first, so a huge integer overflows here
      let _ ← (Amount.whole value).toFloat
      if 0 ≤ value then pure () else throw (.notFiniteNonNegative (.whole value))
  | .real value =>
      if value.isFinite = true ∧ 0 ≤ value then pure ()
      else throw (.notFiniteNonNegative (.real value))

def amountCanonical (amount : Amount) : Except AmountError String := do
  let value ← amount.toFloat
  pure (Decimal.fixed6 value)

/-- `f"{amount:.6f}"` of an amount that passes `_require_signable_amount`. -/
def signableText (amount : Amount) : Except AmountError String := do
  requireSignableAmount amount
  amountCanonical amount

def signParts (entry : LedgerEntry) (amount : String) (role : Role) : List String :=
  [entry.entryId, amount, entry.workItemId, entry.icpEnvelopeHash, role.text]

/-- The bytes `canonical_sign_bytes` joins before it hashes them. -/
def signPreimage (entry : LedgerEntry) (role : Role) : Except AmountError Bytes := do
  let amount ← signableText entry.amountCredits
  pure ((utf8 "|").intercalate ((signParts entry amount role).map utf8))

section Verification

variable (crypto : Crypto)

def canonicalSignBytes (entry : LedgerEntry) (role : Role) : Except AmountError Bytes := do
  let preimage ← signPreimage entry role
  pure (crypto.blake3 preimage)

inductive SignatureReason where
  | noSignature
  | hexDecode
  | pubkeyLength (length : Nat)
  | signatureLength (length : Nat)
  | unsignableEntry (error : AmountError)
  | signatureMismatch
  deriving DecidableEq

/-- `none` is the accepting answer `(True, "")`; an error is an exception that escapes. -/
def verifyRoleSignature (entry : LedgerEntry) (role : Role) (sigHex pubkeyHex : String) :
    Except AmountError (Option SignatureReason) :=
  match Hex.fromhex pubkeyHex, Hex.fromhex sigHex with
  | some pubkey, some sig =>
      if pubkey.length ≠ 32 then .ok (some (.pubkeyLength pubkey.length))
      else if sig.length ≠ 64 then .ok (some (.signatureLength sig.length))
      else
        match canonicalSignBytes crypto entry role with
        | .error .overflow => .error .overflow
        | .error error => .ok (some (.unsignableEntry error))
        | .ok digest =>
            if crypto.ed25519Verify pubkey digest sig then .ok none
            else .ok (some .signatureMismatch)
  | _, _ => .ok (some .hexDecode)

def verifyPayerSignature (entry : LedgerEntry) : Except AmountError (Option SignatureReason) :=
  if entry.fromSignature = "" then .ok (some .noSignature)
  else verifyRoleSignature crypto entry .payer entry.fromSignature entry.fromCompositor

def verifyEarnerSignature (entry : LedgerEntry) : Except AmountError (Option SignatureReason) :=
  if entry.toSignature = "" then .ok (some .noSignature)
  else verifyRoleSignature crypto entry .earner entry.toSignature entry.toCompositor

inductive EntryReason where
  | missingPayerSignature
  | missingEarnerSignature
  | payer (reason : SignatureReason)
  | earner (reason : SignatureReason)
  deriving DecidableEq

def verifyEntry (entry : LedgerEntry) : Except AmountError (Option EntryReason) := do
  if entry.fromSignature = "" then return some .missingPayerSignature
  if entry.toSignature = "" then return some .missingEarnerSignature
  match ← verifyPayerSignature crypto entry with
  | some reason => return some (.payer reason)
  | none =>
      match ← verifyEarnerSignature crypto entry with
      | some reason => return some (.earner reason)
      | none => return none

/-- What an accepted role signature amounts to: a 32-byte key and a 64-byte
signature that verifies over the hash of the entry's joined bytes. -/
def RoleSigned (entry : LedgerEntry) (role : Role) (sigHex pubkeyHex : String) : Prop :=
  ∃ pubkey sig preimage, Hex.fromhex pubkeyHex = some pubkey ∧ Hex.fromhex sigHex = some sig ∧
    pubkey.length = 32 ∧ sig.length = 64 ∧ signPreimage entry role = .ok preimage ∧
    crypto.ed25519Verify pubkey (crypto.blake3 preimage) sig = true

variable {crypto}

theorem canonicalSignBytes_ok {entry : LedgerEntry} {role : Role} {preimage : Bytes}
    (signable : signPreimage entry role = .ok preimage) :
    canonicalSignBytes crypto entry role = .ok (crypto.blake3 preimage) := by
  simp [canonicalSignBytes, signable, bind, Except.bind, pure, Except.pure]

theorem canonicalSignBytes_error {entry : LedgerEntry} {role : Role} {error : AmountError}
    (unsignable : signPreimage entry role = .error error) :
    canonicalSignBytes crypto entry role = .error error := by
  simp [canonicalSignBytes, unsignable, bind, Except.bind]

theorem verifyRoleSignature_accepts (entry : LedgerEntry) (role : Role)
    (sigHex pubkeyHex : String) :
    verifyRoleSignature crypto entry role sigHex pubkeyHex = .ok none ↔
      RoleSigned crypto entry role sigHex pubkeyHex := by
  constructor
  · intro accepted
    simp only [verifyRoleSignature] at accepted
    split at accepted
    · rename_i pubkey sig keyDecodes sigDecodes
      split_ifs at accepted with keyLength sigLength
      · cases accepted
      · cases accepted
      · cases preimage : signPreimage entry role with
        | error error =>
            rw [canonicalSignBytes_error preimage] at accepted
            cases error <;> cases accepted
        | ok bytes =>
            rw [canonicalSignBytes_ok preimage] at accepted
            simp only at accepted
            split_ifs at accepted with verified
            · exact ⟨pubkey, sig, bytes, keyDecodes, sigDecodes, not_not.mp keyLength,
                not_not.mp sigLength, preimage, verified⟩
            · cases accepted
    · cases accepted
  · intro ⟨pubkey, sig, preimage, keyDecodes, sigDecodes, keyLength, sigLength, signable, verified⟩
    simp [verifyRoleSignature, keyDecodes, sigDecodes, keyLength, sigLength,
      canonicalSignBytes_ok signable, verified]

theorem roleSigned_ne_empty {entry : LedgerEntry} {role : Role} {sigHex pubkeyHex : String}
    (signed : RoleSigned crypto entry role sigHex pubkeyHex) : sigHex ≠ "" := by
  rintro rfl
  rcases signed with ⟨pubkey, sig, preimage, keyDecodes, sigDecodes, keyLength, sigLength, _⟩
  have empty : sig = [] := by
    have blank : Hex.fromhex "" = some [] := by decide
    exact Option.some.inj (sigDecodes.symm.trans blank)
  subst empty
  cases sigLength

theorem verifyPayerSignature_accepts (entry : LedgerEntry) :
    verifyPayerSignature crypto entry = .ok none ↔
      RoleSigned crypto entry .payer entry.fromSignature entry.fromCompositor := by
  simp only [verifyPayerSignature]
  split_ifs with missing
  · constructor
    · intro accepted
      cases accepted
    · intro signed
      exact absurd missing (roleSigned_ne_empty signed)
  · exact verifyRoleSignature_accepts _ _ _ _

theorem verifyEarnerSignature_accepts (entry : LedgerEntry) :
    verifyEarnerSignature crypto entry = .ok none ↔
      RoleSigned crypto entry .earner entry.toSignature entry.toCompositor := by
  simp only [verifyEarnerSignature]
  split_ifs with missing
  · constructor
    · intro accepted
      cases accepted
    · intro signed
      exact absurd missing (roleSigned_ne_empty signed)
  · exact verifyRoleSignature_accepts _ _ _ _

/-- `verify_entry` accepts exactly the entries both parties have signed. -/
theorem verifyEntry_accepts (entry : LedgerEntry) :
    verifyEntry crypto entry = .ok none ↔
      RoleSigned crypto entry .payer entry.fromSignature entry.fromCompositor ∧
        RoleSigned crypto entry .earner entry.toSignature entry.toCompositor := by
  constructor
  · intro accepted
    rw [← verifyPayerSignature_accepts, ← verifyEarnerSignature_accepts]
    simp only [verifyEntry, bind, Except.bind, pure, Except.pure] at accepted
    split_ifs at accepted with noPayer noEarner
    · cases accepted
    · cases accepted
    · cases payer : verifyPayerSignature crypto entry with
      | error error => simp [payer] at accepted
      | ok reason =>
          cases reason with
          | some reason => simp [payer] at accepted
          | none =>
              cases earner : verifyEarnerSignature crypto entry with
              | error error => simp [payer, earner] at accepted
              | ok reason =>
                  cases reason with
                  | some reason => simp [payer, earner] at accepted
                  | none => exact ⟨rfl, rfl⟩
  · intro ⟨payer, earner⟩
    have payerPresent := roleSigned_ne_empty payer
    have earnerPresent := roleSigned_ne_empty earner
    rw [← verifyPayerSignature_accepts] at payer
    rw [← verifyEarnerSignature_accepts] at earner
    simp [verifyEntry, payerPresent, earnerPresent, payer, earner, bind, Except.bind, pure,
      Except.pure]

end Verification

end Gyza

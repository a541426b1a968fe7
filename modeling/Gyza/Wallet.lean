import Gyza.Ledger
import Gyza.Lib.Dict
import Gyza.Lib.Keyed

/-! The wallet: a read projection over ledger entries (`gyza/economy/wallet.py`). -/

namespace Gyza

/-- A ledger entry whose amount converts to a float, as the type `float` promises. -/
structure NumericEntry extends LedgerEntry where
  value : Float
  numeric : amountCredits.toFloat = .ok value

namespace Wallet

def microsPerCredit : Nat := 1000000

/-- The digits of the default `decimal` context, to which products are rounded. -/
def contextDigits : Nat := 28

/-- The coefficient of `Decimal(text)`: the digits of the text, read without its point. -/
def coefficient (text : String) : Nat :=
  (text.toList.filter Char.isDigit).foldl (fun total digit => 10 * total + (digit.toNat - 48)) 0

def roundToContext (number : Nat) : Nat :=
  let dropped := (Nat.toDigits 10 number).length - contextDigits
  Decimal.roundHalfEven number (10 ^ dropped) * 10 ^ dropped

/-- `amount < 0.0`, which compares an integer exactly. -/
def isNegative : Amount → Bool
  | .real value => value < 0
  | .whole value => value < 0
  | .bool _ => false
  | .other _ => false

def amountToMicros (entry : NumericEntry) : Option Int :=
  if entry.value.isFinite = false ∨ isNegative entry.amountCredits = true then none
  else
    -- six of the product's digits stand behind the point
    some (Decimal.roundHalfEven
      (roundToContext (coefficient (Decimal.fixed6 entry.value) * microsPerCredit)) (10 ^ 6))

@[ext] structure Credits where
  micros : Int
  deriving DecidableEq

def Credits.zero : Credits := ⟨0⟩

instance : Add Credits := ⟨fun first second => ⟨first.micros + second.micros⟩⟩

instance : Sub Credits := ⟨fun first second => ⟨first.micros - second.micros⟩⟩

@[simp] theorem Credits.micros_zero : Credits.zero.micros = 0 := rfl

@[simp] theorem Credits.micros_add (first second : Credits) :
    (first + second).micros = first.micros + second.micros := rfl

@[simp] theorem Credits.micros_sub (first second : Credits) :
    (first - second).micros = first.micros - second.micros := rfl

def Credits.fromAmount (entry : NumericEntry) : Option Credits :=
  (amountToMicros entry).map Credits.mk

structure WalletStatement where
  pubkey : String
  settledIn : Credits
  settledOut : Credits
  net : Credits
  pendingIn : Credits
  pendingOut : Credits
  settledEntryCount : Nat
  excludedSelfDealing : Nat
  excludedMalformed : Nat
  excludedConflicting : Nat
  deriving DecidableEq

def canonical (entry : NumericEntry) : String × String × String × Bool :=
  (entry.fromCompositor, entry.toCompositor, Decimal.fixed6 entry.value, entry.settled)

/-- The constructor's two local variables; a disputed id has no chosen entry. -/
structure Folded where
  chosen : Dict String NumericEntry
  conflicting : Finset String
  apart : ∀ id ∈ conflicting, chosen.lookup id = none

namespace Folded

def start : Folded := ⟨Dict.empty, ∅, by simp⟩

def choose (state : Folded) (entry : NumericEntry)
    (free : entry.entryId ∉ state.conflicting) : Folded :=
  ⟨state.chosen.set entry.entryId entry, state.conflicting, by
    intro id disputed
    have other : entry.entryId ≠ id := fun same => free (same ▸ disputed)
    rw [Dict.lookup_set, if_neg other]
    exact state.apart id disputed⟩

def dispute (state : Folded) (entryId : String) : Folded :=
  ⟨state.chosen.pop entryId, insert entryId state.conflicting, by
    intro id disputed
    rw [Dict.lookup_pop]
    rcases Finset.mem_insert.mp disputed with rfl | before
    · rw [if_pos rfl]
    · split_ifs
      · rfl
      · exact state.apart id before⟩

def step (state : Folded) (entry : NumericEntry) : Folded :=
  if disputed : entry.entryId ∈ state.conflicting then state
  else
    match state.chosen.lookup entry.entryId with
    | none => state.choose entry disputed
    | some prev =>
        if canonical prev = canonical entry then state
        else if prev.settled && !entry.settled then state
        else if entry.settled && !prev.settled then state.choose entry disputed
        else state.dispute entry.entryId

end Folded

end Wallet

structure Wallet where
  entries : List NumericEntry
  conflictingCount : Nat

namespace Wallet

def fold (entries : List NumericEntry) : Folded := entries.foldl Folded.step Folded.start

/-- `Wallet(entries)`. -/
def ofEntries (entries : List NumericEntry) : Wallet :=
  ⟨(fold entries).chosen.values, (fold entries).conflicting.card⟩

/-- The running sums of `statement`. -/
structure Tally where
  settledIn : Credits := .zero
  settledOut : Credits := .zero
  pendingIn : Credits := .zero
  pendingOut : Credits := .zero
  settledCount : Nat := 0
  selfDealing : Nat := 0
  malformed : Nat := 0

def Tally.add (pubkey : String) (tally : Tally) (entry : NumericEntry) : Tally :=
  if entry.fromCompositor = entry.toCompositor then
    { tally with selfDealing := tally.selfDealing + 1 }
  else
    match Credits.fromAmount entry with
    | none => { tally with malformed := tally.malformed + 1 }
    | some amount =>
        let isEarner := entry.toCompositor = pubkey
        let isPayer := entry.fromCompositor = pubkey
        if ¬(isEarner ∨ isPayer) then tally
        else if entry.settled then
          { tally with
            settledIn := if isEarner then tally.settledIn + amount else tally.settledIn
            settledOut := if isPayer then tally.settledOut + amount else tally.settledOut
            settledCount := tally.settledCount + 1 }
        else
          { tally with
            pendingIn := if isEarner then tally.pendingIn + amount else tally.pendingIn
            pendingOut := if isPayer then tally.pendingOut + amount else tally.pendingOut }

def statement (wallet : Wallet) (pubkey : String) : WalletStatement :=
  let tally := wallet.entries.foldl (Tally.add pubkey) {}
  { pubkey := pubkey
    settledIn := tally.settledIn
    settledOut := tally.settledOut
    net := tally.settledIn - tally.settledOut
    pendingIn := tally.pendingIn
    pendingOut := tally.pendingOut
    settledEntryCount := tally.settledCount
    excludedSelfDealing := tally.selfDealing
    excludedMalformed := tally.malformed
    excludedConflicting := wallet.conflictingCount }

def netBalance (wallet : Wallet) (pubkey : String) : Credits := (wallet.statement pubkey).net

end Wallet

end Gyza

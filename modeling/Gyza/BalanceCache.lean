import Gyza.SignedBytes
import Gyza.Lib.Run

/-! The balance cache of a ledger (`_update_balance_cache`) over runs of the
calls that sign and settle, each carried to its end before the next. -/

namespace Gyza

/-- `COALESCE(SUM(amount_credits), 0)`; how the store adds a column up is its own. -/
structure SqlSum where
  total : List Float → Float
  total_nil : total [] = 0

structure CacheRow where
  peerCompositor : String
  netCredits : Float
  lastUpdatedNs : Int
  lastEntryId : String
  deriving DecidableEq

abbrev CacheTable := Table CacheRow.peerCompositor

structure Books where
  ledger : LedgerTable
  cache : CacheTable

def Books.empty : Books := ⟨Table.empty, Table.empty⟩

/-- The amount a settled entry between two parties adds to a sum. -/
def settledAmount (fromCompositor toCompositor : String) (row : LedgerRow) : Option Float :=
  if row.settled = true ∧ row.fromCompositor = fromCompositor ∧ row.toCompositor = toCompositor then
    some row.amountCredits
  else none

def settledAmounts (ledger : LedgerTable) (fromCompositor toCompositor : String) : List Float :=
  ledger.rows.filterMap (settledAmount fromCompositor toCompositor)

section Cache

variable (sum : SqlSum)

def getBalance (self : String) (ledger : LedgerTable) (peerCompositor : String) : Float :=
  if peerCompositor = self then 0
  else
    sum.total (settledAmounts ledger peerCompositor self) -
      sum.total (settledAmounts ledger self peerCompositor)

/-- The party whose cached balance a settled entry refreshes. -/
def cachePeer (self : String) (entry : LedgerEntry) : String :=
  if entry.toCompositor = self then entry.fromCompositor else entry.toCompositor

def mergeCache (old new : CacheRow) : CacheRow :=
  { old with
    netCredits := new.netCredits
    lastUpdatedNs := new.lastUpdatedNs
    lastEntryId := new.lastEntryId }

theorem mergeCache_peer (old new : CacheRow) :
    (mergeCache old new).peerCompositor = old.peerCompositor := rfl

/-- `_update_balance_cache`; a NaN is bound as NULL, which the column refuses. -/
def updateBalanceCache (self : String) (ledger : LedgerTable) (cache : CacheTable)
    (entry : LedgerEntry) (now : Int) : Except LedgerError CacheTable :=
  let peer := cachePeer self entry
  if peer = self then .ok cache
  else
    let balance := getBalance sum self ledger peer
    if balance.isNaN then .error .notNull
    else if FitsInt64 now then
      .ok (cache.upsert mergeCache mergeCache_peer ⟨peer, balance, now, entry.entryId⟩)
    else .error .bindOverflow

/-- What a reader of `balance_cache` takes the balance with a peer to be. -/
def cachedBalance (cache : CacheTable) (peerCompositor : String) : Float :=
  ((cache.get? peerCompositor).map CacheRow.netCredits).getD 0

theorem cachedBalance_upsert (cache : CacheTable) (row : CacheRow) (peer : String) :
    cachedBalance (cache.upsert mergeCache mergeCache_peer row) peer =
      if row.peerCompositor = peer then row.netCredits else cachedBalance cache peer := by
  by_cases same : row.peerCompositor = peer
  · cases stored : cache.get? peer with
    | none => simp [cachedBalance, Table.get?_upsert, same, stored]
    | some old => simp [cachedBalance, Table.get?_upsert, same, stored, mergeCache]
  · simp [cachedBalance, Table.get?_upsert, same]

end Cache

/-! What one upsert of a settled row does to the balances. -/

section Frames

variable {sum : SqlSum} {self : String} {ledger : LedgerTable} {row : LedgerRow}

theorem getBalance_upsert (peer : String)
    (absent : ledger.get? row.entryId = none → ∀ first second,
      (first = peer ∧ second = self) ∨ (first = self ∧ second = peer) →
        settledAmount first second row = none)
    (present : ∀ old, ledger.get? row.entryId = some old → ∀ first second,
      (first = peer ∧ second = self) ∨ (first = self ∧ second = peer) →
        settledAmount first second (mergeSignatures old row) = settledAmount first second old) :
    getBalance sum self (ledger.upsert mergeSignatures mergeSignatures_entryId row) peer =
      getBalance sum self ledger peer := by
  have earned := ledger.filterMap_upsert mergeSignatures mergeSignatures_entryId row
    (settledAmount peer self) (fun fresh => absent fresh _ _ (Or.inl ⟨rfl, rfl⟩))
    (fun old stored => present old stored _ _ (Or.inl ⟨rfl, rfl⟩))
  have spent := ledger.filterMap_upsert mergeSignatures mergeSignatures_entryId row
    (settledAmount self peer) (fun fresh => absent fresh _ _ (Or.inr ⟨rfl, rfl⟩))
    (fun old stored => present old stored _ _ (Or.inr ⟨rfl, rfl⟩))
  simp only [getBalance, settledAmounts, earned, spent]

/-- A row between this ledger and one peer moves no other balance. -/
theorem settledAmount_other {peer : String} {entry : LedgerEntry} {stored : LedgerRow}
    (parties : stored.fromCompositor = entry.fromCompositor ∧
      stored.toCompositor = entry.toCompositor)
    (other : peer ≠ cachePeer self entry) {first second : String}
    (between : (first = peer ∧ second = self) ∨ (first = self ∧ second = peer)) :
    settledAmount first second stored = none := by
  have unmatched : ¬ (stored.fromCompositor = first ∧ stored.toCompositor = second) := by
    rw [parties.1, parties.2]
    intro matched
    apply other
    rcases between with between | between
    · simp [cachePeer, matched, between]
    · simp [cachePeer, matched, between]
  simp [settledAmount, unmatched]

end Frames

/-! Runs. -/

inductive LedgerCall where
  | signAsEarner (entry : LedgerEntry)
  | signAsPayer (entry : LedgerEntry) (now : Int)
  | applyCosignedEntry (entry : LedgerEntry) (now : Int)

section Runs

variable {crypto : Crypto} (compositor : LocalCompositor crypto) (sum : SqlSum)

/-- The settled entry is committed before the cache is written, so a refused cache row
leaves the entry behind. -/
def settleThenCache (books : Books) (entry : LedgerEntry) (now : Int)
    (settled : Except LedgerError (LedgerEntry × LedgerTable)) : Books :=
  match settled with
  | .error _ => books
  | .ok (_, saved) =>
      match updateBalanceCache sum compositor.pubkeyHex saved books.cache entry now with
      | .error _ => { books with ledger := saved }
      | .ok cache => ⟨saved, cache⟩

def booksStep (books : Books) : LedgerCall → Books
  | .signAsEarner entry =>
      match signAsEarner compositor books.ledger entry with
      | .error _ => books
      | .ok (_, saved) => { books with ledger := saved }
  | .signAsPayer entry now =>
      settleThenCache compositor sum books entry now (signAsPayer compositor books.ledger entry)
  | .applyCosignedEntry entry now =>
      settleThenCache compositor sum books entry now (applyCosignedEntry crypto books.ledger entry)

def settledUnder (ledger : LedgerTable) (entryId : String) : Bool :=
  (ledger.get? entryId).any LedgerRow.settled

/-- A settling call names the parties of the row stored under its id, at a clock the store
holds and with a sum of entries that is a number. -/
structure SettlesTracked (books : Books) (entry : LedgerEntry) (now : Int)
    (settled : Except LedgerError (LedgerEntry × LedgerTable)) : Prop where
  parties : (books.ledger.get? entry.entryId).all (fun row =>
    row.fromCompositor = entry.fromCompositor ∧ row.toCompositor = entry.toCompositor) = true
  storable : FitsInt64 now
  number : settled.toOption.all (fun done => !(getBalance sum compositor.pubkeyHex done.2
    (cachePeer compositor.pubkeyHex entry)).isNaN) = true

/-- The calls after which the cache is right: the earner's own pass leaves the stored
flag as it is. -/
def Tracked (books : Books) : LedgerCall → Prop
  | .signAsEarner entry => settledUnder books.ledger entry.entryId = entry.settled
  | .signAsPayer entry now => SettlesTracked compositor sum books entry now
      (signAsPayer compositor books.ledger entry)
  | .applyCosignedEntry entry now => SettlesTracked compositor sum books entry now
      (applyCosignedEntry crypto books.ledger entry)

def Coherent (books : Books) : Prop :=
  ∀ peer, cachedBalance books.cache peer = getBalance sum compositor.pubkeyHex books.ledger peer

variable {compositor sum}

theorem coherent_empty : Coherent compositor sum Books.empty := by
  intro peer
  have nothing : cachedBalance Books.empty.cache peer = 0 := rfl
  have unsettled : ∀ first second, settledAmounts Books.empty.ledger first second = [] :=
    fun _ _ => rfl
  rw [nothing, getBalance]
  split
  · rfl
  · rw [unsettled, unsettled, sum.total_nil]
    rfl

/-- The columns a saved entry is found by and summed by are the entry's own. -/
theorem rowOf_columns {entry : LedgerEntry} {row : LedgerRow} (written : rowOf entry = .ok row) :
    row.entryId = entry.entryId ∧ row.settled = entry.settled ∧
      row.fromCompositor = entry.fromCompositor ∧ row.toCompositor = entry.toCompositor := by
  rcases rowOf_ok written with ⟨value, _, read⟩
  exact ⟨congrArg LedgerEntry.entryId read, congrArg LedgerEntry.settled read,
    congrArg LedgerEntry.fromCompositor read, congrArg LedgerEntry.toCompositor read⟩

theorem signAsEarner_entryId {ledger saved : LedgerTable} {entry signed : LedgerEntry}
    (done : signAsEarner compositor ledger entry = .ok (signed, saved)) :
    signed.entryId = entry.entryId := by
  simp only [signAsEarner, bind, Except.bind, pure, Except.pure, throw, throwThe,
    MonadExceptOf.throw] at done
  split_ifs at done
  cases digest : canonicalSignBytes crypto entry .earner with
  | error error => simp [digest, Except.mapError] at done
  | ok bytes =>
      simp only [digest, Except.mapError] at done
      split at done
      · cases done
      · cases done
        rfl

theorem signAsEarner_coherent {books : Books} (coherent : Coherent compositor sum books)
    {entry signed : LedgerEntry} {saved : LedgerTable}
    (done : signAsEarner compositor books.ledger entry = .ok (signed, saved))
    (kept : settledUnder books.ledger entry.entryId = entry.settled) :
    Coherent compositor sum { books with ledger := saved } := by
  rcases signAsEarner_ok done with ⟨settled, row, written, rfl⟩
  rcases rowOf_columns written with ⟨id, status, _, _⟩
  rw [signAsEarner_entryId done] at id
  rw [settled, ← kept, ← id] at status
  intro peer
  have same : getBalance sum compositor.pubkeyHex
      (books.ledger.upsert mergeSignatures mergeSignatures_entryId row) peer =
        getBalance sum compositor.pubkeyHex books.ledger peer := by
    apply getBalance_upsert
    · intro fresh first second _
      have unsettled : row.settled = false := by rw [status, settledUnder, fresh]; rfl
      simp [settledAmount, unsettled]
    · intro old stored first second _
      have flag : row.settled = old.settled := by rw [status, settledUnder, stored]; rfl
      simp [settledAmount, mergeSignatures, flag]
  exact (coherent peer).trans same.symm

/-- A settlement moves the balance with one peer, and the cache is given that balance. -/
theorem settleThenCache_coherent {books : Books} (coherent : Coherent compositor sum books)
    {entry : LedgerEntry} {now : Int} {settled : Except LedgerError (LedgerEntry × LedgerTable)}
    (settles : ∀ signed saved, settled = .ok (signed, saved) →
      Settles crypto books.ledger entry signed saved)
    (tracked : SettlesTracked compositor sum books entry now settled) :
    Coherent compositor sum (settleThenCache compositor sum books entry now settled) := by
  rcases settled with error | ⟨signed, saved⟩
  · exact coherent
  rcases (settles signed saved rfl) with ⟨_, unchanged, row, written, rfl⟩
  rcases rowOf_columns written with ⟨id, _, payer, earner⟩
  rw [unchanged] at id payer earner
  have frame : ∀ peer, peer ≠ cachePeer compositor.pubkeyHex entry →
      getBalance sum compositor.pubkeyHex
        (books.ledger.upsert mergeSignatures mergeSignatures_entryId row) peer =
          getBalance sum compositor.pubkeyHex books.ledger peer := by
    intro peer other
    apply getBalance_upsert
    · intro _ first second between
      exact settledAmount_other ⟨payer, earner⟩ other between
    · intro old stored first second between
      rw [id] at stored
      have parties := tracked.parties
      simp only [stored, Option.all_some, decide_eq_true_eq] at parties
      have merged : (mergeSignatures old row).fromCompositor = entry.fromCompositor ∧
          (mergeSignatures old row).toCompositor = entry.toCompositor := parties
      rw [settledAmount_other parties other between, settledAmount_other merged other between]
  have number := tracked.number
  simp only [Except.toOption, Option.all_some, Bool.not_eq_true'] at number
  intro peer
  simp only [settleThenCache, updateBalanceCache, number, tracked.storable]
  by_cases own : cachePeer compositor.pubkeyHex entry = compositor.pubkeyHex
  · simp only [own, if_true]
    by_cases self : peer = compositor.pubkeyHex
    · rw [coherent peer, self]
      simp [getBalance]
    · have other : peer ≠ cachePeer compositor.pubkeyHex entry := own.symm ▸ self
      rw [coherent peer, frame peer other]
  · simp only [own, if_false, if_true, Bool.false_eq_true]
    rw [cachedBalance_upsert]
    by_cases refreshed : cachePeer compositor.pubkeyHex entry = peer
    · rw [if_pos refreshed, refreshed]
    · rw [if_neg refreshed, coherent peer, frame peer (Ne.symm refreshed)]

theorem booksStep_coherent (books : Books) (call : LedgerCall)
    (coherent : Coherent compositor sum books) (tracked : Tracked compositor sum books call) :
    Coherent compositor sum (booksStep compositor sum books call) := by
  cases call with
  | signAsEarner entry =>
      simp only [booksStep]
      cases done : signAsEarner compositor books.ledger entry with
      | error error => exact coherent
      | ok result => exact signAsEarner_coherent coherent done tracked
  | signAsPayer entry now =>
      exact settleThenCache_coherent coherent (fun _ _ done => (signAsPayer_ok done).2) tracked
  | applyCosignedEntry entry now =>
      exact settleThenCache_coherent coherent (fun _ _ done => (applyCosignedEntry_ok done).2)
        tracked

/-- Along runs of such calls a peer's cached balance is the balance its settled entries give. -/
theorem balance_cache_coherent (calls : List LedgerCall)
    (tracked : Run.Admissible (booksStep compositor sum) (Tracked compositor sum) Books.empty calls)
    (peer : String) :
    cachedBalance (Run.run (booksStep compositor sum) Books.empty calls).cache peer =
      getBalance sum compositor.pubkeyHex
        (Run.run (booksStep compositor sum) Books.empty calls).ledger peer :=
  Run.invariant_run (booksStep compositor sum) (Tracked compositor sum) (Coherent compositor sum)
    booksStep_coherent Books.empty calls coherent_empty tracked peer

end Runs

/-- Amounts added up from the left. -/
def Sample.sqlSum : SqlSum := ⟨fun amounts => amounts.foldl (· + ·) 0, rfl⟩

/-- The second sample node's claim on the first. -/
def Sample.owed : LedgerEntry :=
  let claim := { sampleEntry with
    fromCompositor := (Sample.compositor 1).pubkeyHex
    toCompositor := (Sample.compositor 2).pubkeyHex }
  match signAsEarner (Sample.compositor 2) Table.empty claim with
  | .ok (signed, _) => signed
  | .error _ => claim

def Sample.settlement : List LedgerCall := [.signAsPayer Sample.owed 5]

theorem balance_cache_coherent_sample :
    cachedBalance (Run.run (booksStep (Sample.compositor 1) Sample.sqlSum) Books.empty
      Sample.settlement).cache (Sample.compositor 2).pubkeyHex =
        getBalance Sample.sqlSum (Sample.compositor 1).pubkeyHex
          (Run.run (booksStep (Sample.compositor 1) Sample.sqlSum) Books.empty
            Sample.settlement).ledger (Sample.compositor 2).pubkeyHex := by
  have tracked : SettlesTracked (Sample.compositor 1) Sample.sqlSum Books.empty Sample.owed 5
      (signAsPayer (Sample.compositor 1) Books.empty.ledger Sample.owed) :=
    ⟨by decide +kernel, by decide, by decide +kernel⟩
  exact balance_cache_coherent Sample.settlement ⟨tracked, trivial⟩ _

end Gyza

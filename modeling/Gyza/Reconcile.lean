import Gyza.LedgerStore
import Gyza.Lib.Paging

/-! Paginated reconciliation of a pairwise ledger view (`gyza/economy/settlement.py`).

Messages are taken decoded. A request is answered against a ledger that does not
change between pages; every send and every wait may fail. -/

namespace Gyza

open Paging (CleanPages)

def defaultReconcilePageSize : Int := 500

def maxReconcilePageSize : Int := 2000

/-- Both ends bound a page size in the same way. -/
def boundedPageSize (requested : Int) : Nat := (max 1 (min requested maxReconcilePageSize)).toNat

structure ReconcileRequest where
  requestId : String
  fromCompositor : String
  forPeer : String
  sinceTimestampNs : Int
  sinceEntryId : String
  maxEntries : Int

structure ReconcileResponse where
  requestId : String
  fromCompositor : String
  entries : List LedgerEntry
  cursorTimestampNs : Int
  cursorEntryId : String
  hasMore : Bool

/-- Cursors compare as `(created_at_ns, entry_id)` tuples. -/
def reconcileCursor (timestampNs : Int) (entryId : String) : Int ×ₗ String :=
  toLex (timestampNs, entryId)

def statementKey (entry : LedgerEntry) : Int ×ₗ String :=
  reconcileCursor entry.createdAtNs entry.entryId

/-- A missing or zero `max_entries` asks for the default. -/
def ReconcileRequest.wanted (request : ReconcileRequest) : Int :=
  if request.maxEntries = 0 then defaultReconcilePageSize else request.maxEntries

/-- One page of a statement: one entry more than fits is fetched to see whether
there is more, and an empty page echoes the cursor. -/
def reconcilePage (own : String) (statement : List LedgerEntry) (maxEntries : Nat)
    (request : ReconcileRequest) : ReconcileResponse :=
  let since := reconcileCursor request.sinceTimestampNs request.sinceEntryId
  let after := statement.filter (fun entry => decide (since < statementKey entry))
  let fetched := after.take (maxEntries + 1)
  let page := fetched.take maxEntries
  let cursor := match page.getLast? with
    | some last => (last.createdAtNs, last.entryId)
    | none => (request.sinceTimestampNs, request.sinceEntryId)
  { requestId := request.requestId
    fromCompositor := own
    entries := page
    cursorTimestampNs := cursor.1
    cursorEntryId := cursor.2
    hasMore := decide (maxEntries < fetched.length) }

/-- `none` is a request that is dropped without an answer. -/
def handleReconcileRequest (own : String) (order : ScanOrder) (ledger : LedgerTable)
    (request : ReconcileRequest) : Option ReconcileResponse :=
  if request.requestId = "" ∨ request.fromCompositor = "" then none
  else if request.forPeer ≠ "" ∧ request.forPeer ≠ own then none
  else some (reconcilePage own (exportStatement order ledger request.fromCompositor)
    (boundedPageSize request.wanted) request)

structure PendingReconcile where
  requestId : String
  peerPubkey : String

/-- Whether a response wakes the waiter of the pending request. -/
def handleReconcileResponse (pending : PendingReconcile) (response : ReconcileResponse) :
    Option ReconcileResponse :=
  if response.requestId = "" then none
  else if response.requestId ≠ pending.requestId then none
  else if response.fromCompositor ≠ pending.peerPubkey then none
  else some response

inductive ReconcileError where
  | missingPeer
  | withSelf
  | sendFailed
  | timeout
  | pageCapExceeded
  deriving DecidableEq

/-- Whether the request of each page is sent, and whether its answer arrives in time. -/
structure ReconcileLink where
  sends : Nat → Bool
  answers : Nat → Bool

/-- A link on which nothing fails. -/
def ReconcileLink.reliable : ReconcileLink := ⟨fun _ => true, fun _ => true⟩

/-- The requester's side of the loop. Request ids are never empty. -/
structure Requester (crypto : Crypto) where
  compositor : LocalCompositor crypto
  requestId : Nat → String
  requestId_nonempty : ∀ page, requestId page ≠ ""

structure ReconcileProgress where
  pages : Nat
  accumulated : List LedgerEntry
  cursorTimestampNs : Int
  cursorEntryId : String

namespace Requester

variable {crypto : Crypto} (requester : Requester crypto) (link : ReconcileLink)
  (peer : ReconcileRequest → Option ReconcileResponse) (peerCompositor : String) (pageSize : Nat)

def request (progress : ReconcileProgress) : ReconcileRequest where
  requestId := requester.requestId progress.pages
  fromCompositor := requester.compositor.pubkeyHex
  forPeer := peerCompositor
  sinceTimestampNs := progress.cursorTimestampNs
  sinceEntryId := progress.cursorEntryId
  maxEntries := pageSize

/-- Send one request and wait for its answer. -/
def fetchPage (progress : ReconcileProgress) : Except ReconcileError ReconcileResponse :=
  let request := requester.request peerCompositor pageSize progress
  if link.sends progress.pages = false then .error .sendFailed
  else if link.answers progress.pages = false then .error .timeout
  else
    match (peer request).bind (handleReconcileResponse ⟨request.requestId, peerCompositor⟩) with
    | none => .error .timeout
    | some response => .ok response

/-- `while pages < max_pages`, with the pages still allowed as first argument. -/
def fetchPages : Nat → ReconcileProgress → ReconcileProgress × Option ReconcileError
  | 0, progress => (progress, some .pageCapExceeded)
  | allowed + 1, progress =>
      match fetchPage requester link peer peerCompositor pageSize progress with
      | .error error => (progress, some error)
      | .ok response =>
          let received := { progress with
            pages := progress.pages + 1
            accumulated := progress.accumulated ++ response.entries }
          if response.hasMore then
            fetchPages allowed { received with
              cursorTimestampNs := response.cursorTimestampNs
              cursorEntryId := response.cursorEntryId }
          else (received, none)

def start : ReconcileProgress := ⟨0, [], 0, ""⟩

/-- Up to the bucketing of what was received; no error means that the last
answer had `has_more` false. -/
def requestReconciliation (peerId : String) (requested maxPages : Int) :
    ReconcileProgress × Option ReconcileError :=
  if peerCompositor = "" ∨ peerId = "" then (start, some .missingPeer)
  else if peerCompositor = requester.compositor.pubkeyHex then (start, some .withSelf)
  else fetchPages requester link peer peerCompositor (boundedPageSize requested) maxPages.toNat
    start

end Requester

theorem boundedPageSize_pos (requested : Int) : 0 < boundedPageSize requested := by
  simp only [boundedPageSize, maxReconcilePageSize]
  omega

/-- The server's bound does not change a page size the client has bounded. -/
theorem boundedPageSize_idem (requested : Int) :
    boundedPageSize (boundedPageSize requested : Int) = boundedPageSize requested := by
  simp only [boundedPageSize, maxReconcilePageSize]
  omega

theorem statementKey_distinct (order : ScanOrder) (ledger : LedgerTable) (peer : String) :
    ((exportStatement order ledger peer).map statementKey).Nodup := by
  have distinct := exportStatement_distinct order ledger peer
  have projected : (exportStatement order ledger peer).map LedgerEntry.entryId =
      ((exportStatement order ledger peer).map statementKey).map (fun cursor => (ofLex cursor).2) := by
    rw [List.map_map]
    rfl
  rw [projected] at distinct
  exact List.Nodup.of_map _ distinct

section Exchange

variable {crypto : Crypto} (requester : Requester crypto) (link : ReconcileLink)
  (responder : LocalCompositor crypto) (order : ScanOrder) (ledger : LedgerTable)

/-- The responder asked is the one whose view is wanted. -/
abbrev answering : ReconcileRequest → Option ReconcileResponse :=
  handleReconcileRequest responder.pubkeyHex order ledger

def ReconcileProgress.cursor (progress : ReconcileProgress) : Int ×ₗ String :=
  reconcileCursor progress.cursorTimestampNs progress.cursorEntryId

/-- The response is the next page of the statement after the cursor. -/
structure IsPage (statement : List LedgerEntry) (size : Nat) (cursor : Int ×ₗ String)
    (response : ReconcileResponse) : Prop where
  entries_eq : response.entries = (Paging.after statementKey statement cursor).take size
  cursor_eq : reconcileCursor response.cursorTimestampNs response.cursorEntryId =
    Paging.nextCursor statementKey response.entries cursor
  hasMore_iff : response.hasMore = true ↔
    size < (Paging.after statementKey statement cursor).length

theorem reconcilePage_isPage (own : String) (statement : List LedgerEntry) (size : Nat)
    (request : ReconcileRequest) :
    IsPage statement size (reconcileCursor request.sinceTimestampNs request.sinceEntryId)
      (reconcilePage own statement size request) := by
  constructor
  · simp only [reconcilePage, List.take_take, Nat.min_eq_left (Nat.le_succ size)]
    rfl
  · simp only [reconcilePage, Paging.nextCursor]
    split
    · rename_i last found
      rw [found]
      rfl
    · rename_i found
      rw [found]
  · simp only [reconcilePage, decide_eq_true_eq, List.length_take, Paging.after]
    omega

theorem answer_eq (size : Nat) (bounded : boundedPageSize size = size) (positive : 0 < size)
    (progress : ReconcileProgress) :
    answering responder order ledger (requester.request responder.pubkeyHex size progress) =
      some (reconcilePage responder.pubkeyHex
        (exportStatement order ledger requester.compositor.pubkeyHex) size
        (requester.request responder.pubkeyHex size progress)) := by
  have wanted : (requester.request responder.pubkeyHex size progress).wanted = size := by
    have nonzero : (size : Int) ≠ 0 := by omega
    exact if_neg nonzero
  have admitted : ¬ ((requester.request responder.pubkeyHex size progress).requestId = "" ∨
      (requester.request responder.pubkeyHex size progress).fromCompositor = "") := by
    intro empty
    rcases empty with noId | noKey
    · exact requester.requestId_nonempty progress.pages noId
    · exact requester.compositor.pubkeyHex_ne_empty noKey
  rw [answering, handleReconcileRequest, if_neg admitted, if_neg (fun wrong => wrong.2 rfl),
    wanted, bounded]
  rfl

/-- A page that arrives is the next page of the statement. -/
theorem fetchPage_ok (size : Nat) (bounded : boundedPageSize size = size) (positive : 0 < size)
    (progress : ReconcileProgress) (response : ReconcileResponse)
    (fetched : requester.fetchPage link (answering responder order ledger) responder.pubkeyHex size
      progress = .ok response) :
    IsPage (exportStatement order ledger requester.compositor.pubkeyHex) size progress.cursor
      response := by
  simp only [Requester.fetchPage, answer_eq requester responder order ledger size bounded positive,
    Option.bind_some, handleReconcileResponse] at fetched
  split_ifs at fetched
  split at fetched
  · cases fetched
  · rename_i accepted
    cases accepted
    cases fetched
    exact reconcilePage_isPage responder.pubkeyHex _ size
      (requester.request responder.pubkeyHex size progress)

/-- Without failures every page arrives. -/
theorem fetchPage_reliable (size : Nat) (bounded : boundedPageSize size = size)
    (positive : 0 < size) (progress : ReconcileProgress) :
    ∃ response, requester.fetchPage .reliable (answering responder order ledger)
      responder.pubkeyHex size progress = .ok response := by
  have named : (reconcilePage responder.pubkeyHex
      (exportStatement order ledger requester.compositor.pubkeyHex) size
      (requester.request responder.pubkeyHex size progress)).requestId ≠ "" :=
    requester.requestId_nonempty progress.pages
  simp only [Requester.fetchPage, answer_eq requester responder order ledger size bounded positive,
    Option.bind_some, handleReconcileResponse, ReconcileLink.reliable, if_neg named]
  rw [if_neg (by decide), if_neg (by decide), if_neg (fun wrong => wrong rfl),
    if_neg (fun wrong => wrong rfl)]
  exact ⟨_, rfl⟩

variable {requester link responder order ledger} {size : Nat}

/-- The loop ends without an error only after it has drained the statement. -/
theorem fetchPages_drain (bounded : boundedPageSize size = size) (positive : 0 < size)
    (allowed : Nat) (progress : ReconcileProgress)
    (ended : (requester.fetchPages link (answering responder order ledger) responder.pubkeyHex size
      allowed progress).2 = none) :
    ∃ got, Paging.drain size statementKey
        (exportStatement order ledger requester.compositor.pubkeyHex) allowed progress.cursor =
          some got ∧
      (requester.fetchPages link (answering responder order ledger) responder.pubkeyHex size
        allowed progress).1.accumulated = progress.accumulated ++ got := by
  induction allowed generalizing progress with
  | zero => cases ended
  | succ allowed ih =>
      cases fetched : requester.fetchPage link (answering responder order ledger)
        responder.pubkeyHex size progress with
      | error error =>
        simp only [Requester.fetchPages, fetched] at ended
        cases ended
      | ok response =>
        have page := fetchPage_ok requester link responder order ledger size bounded positive
          progress response fetched
        simp only [Requester.fetchPages, fetched] at ended ⊢
        split_ifs at ended ⊢ with more
        · rcases ih _ ended with ⟨rest, drained, accumulated⟩
          refine ⟨response.entries ++ rest, ?_, ?_⟩
          · rw [Paging.drain, if_pos (page.hasMore_iff.mp more), ← page.entries_eq,
              ← page.cursor_eq]
            exact Option.map_eq_some_iff.mpr ⟨rest, drained, rfl⟩
          · rw [accumulated, List.append_assoc]
        · refine ⟨response.entries, ?_, rfl⟩
          rw [Paging.drain, if_neg (fun longer => more (page.hasMore_iff.mpr longer)),
            page.entries_eq]

variable (responder) in
/-- Without failures the loop ends as soon as the statement can be drained. -/
theorem fetchPages_ends (bounded : boundedPageSize size = size) (positive : 0 < size)
    (allowed : Nat) (progress : ReconcileProgress) (got : List LedgerEntry)
    (drained : Paging.drain size statementKey
      (exportStatement order ledger requester.compositor.pubkeyHex) allowed progress.cursor =
        some got) :
    (requester.fetchPages .reliable (answering responder order ledger) responder.pubkeyHex size
      allowed progress).2 = none := by
  induction allowed generalizing progress got with
  | zero => cases drained
  | succ allowed ih =>
      rcases fetchPage_reliable requester responder order ledger size bounded positive progress with
        ⟨response, fetched⟩
      have page := fetchPage_ok requester .reliable responder order ledger size bounded positive
        progress response fetched
      simp only [Requester.fetchPages, fetched]
      split_ifs with more
      · rw [Paging.drain, if_pos (page.hasMore_iff.mp more), ← page.entries_eq, ← page.cursor_eq]
          at drained
        rcases Option.map_eq_some_iff.mp drained with ⟨rest, remaining, _⟩
        exact ih _ rest remaining
      · rfl

/-- Whenever the loop ends without an error, it has received every entry of the
responder's statement exactly once. -/
def ReconciliationLossless (order : ScanOrder) (ledger : LedgerTable)
    (responder : LocalCompositor crypto) (requester : Requester crypto) (pageSize : Int) : Prop :=
  ∀ link peerId maxPages,
    (requester.requestReconciliation link (answering responder order ledger) responder.pubkeyHex
      peerId pageSize maxPages).2 = none →
    ∀ entry ∈ exportStatement order ledger requester.compositor.pubkeyHex,
      (requester.requestReconciliation link (answering responder order ledger) responder.pubkeyHex
        peerId pageSize maxPages).1.accumulated.count entry = 1

/-- Every entry comes after the first cursor, and at each page end that is not
the end of the statement, the page's last entry is above all before it and
below all after it. -/
def PagesSeparate (order : ScanOrder) (ledger : LedgerTable) (peer : String) (size : Nat) : Prop :=
  (∀ entry ∈ exportStatement order ledger peer, reconcileCursor 0 "" < statementKey entry) ∧
    CleanPages size statementKey (exportStatement order ledger peer)

theorem perm_of_count_one {statement got : List LedgerEntry} (distinct : statement.Nodup)
    (inside : ∀ entry ∈ got, entry ∈ statement) (once : ∀ entry ∈ statement, got.count entry = 1) :
    got.Perm statement := by
  apply List.perm_iff_count.mpr
  intro entry
  by_cases member : entry ∈ statement
  · rw [once entry member, List.count_eq_one_of_mem distinct member]
  · rw [List.count_eq_zero_of_not_mem member,
      List.count_eq_zero_of_not_mem (fun received => member (inside entry received))]

/-- Past the checks on its arguments, the request is the loop. -/
theorem requestReconciliation_eq (pageSize maxPages : Int) (peerId : String) (reached : peerId ≠ "")
    (other : responder.pubkeyHex ≠ requester.compositor.pubkeyHex) :
    requester.requestReconciliation link (answering responder order ledger) responder.pubkeyHex
        peerId pageSize maxPages =
      requester.fetchPages link (answering responder order ledger) responder.pubkeyHex
        (boundedPageSize pageSize) maxPages.toNat Requester.start := by
  have named := responder.pubkeyHex_ne_empty
  simp only [Requester.requestReconciliation, named, reached, or_self, if_false, if_neg other]

end Exchange

theorem reconciliation_lossless_iff {crypto : Crypto} (order : ScanOrder) (ledger : LedgerTable)
    (responder : LocalCompositor crypto) (requester : Requester crypto) (pageSize : Int) :
    ReconciliationLossless order ledger responder requester pageSize ↔
      responder.pubkeyHex = requester.compositor.pubkeyHex ∨
        PagesSeparate order ledger requester.compositor.pubkeyHex (boundedPageSize pageSize) := by
  have positive := boundedPageSize_pos pageSize
  have bounded := boundedPageSize_idem pageSize
  have distinct := statementKey_distinct order ledger requester.compositor.pubkeyHex
  by_cases self : responder.pubkeyHex = requester.compositor.pubkeyHex
  · simp only [self, true_or, iff_true]
    intro link peerId maxPages ended
    simp only [Requester.requestReconciliation, self, if_true] at ended
    split_ifs at ended
  · rw [or_iff_right self]
    constructor
    · intro lossless
      apply (Paging.drain_perm_iff positive (reconcileCursor 0 "") distinct).mp
      intro fuel got drained
      have ended := fetchPages_ends responder bounded positive fuel Requester.start got drained
      have once := lossless .reliable "peer" fuel
      rw [requestReconciliation_eq pageSize fuel "peer" (by decide) self, Int.toNat_natCast] at once
      rcases fetchPages_drain bounded positive fuel Requester.start ended with
        ⟨received, again, accumulated⟩
      have same : received = got := Option.some.inj (again.symm.trans drained)
      rw [same, Requester.start, List.nil_append] at accumulated
      apply perm_of_count_one (List.Nodup.of_map _ distinct)
      · intro entry member
        exact (Paging.mem_drain positive drained entry member).1
      · intro entry member
        rw [← accumulated]
        exact once ended entry member
    · intro separate link peerId maxPages ended entry member
      by_cases reached : peerId = ""
      · simp [Requester.requestReconciliation, reached] at ended
      · rw [requestReconciliation_eq pageSize maxPages peerId reached self] at ended ⊢
        rcases fetchPages_drain bounded positive _ _ ended with ⟨got, drained, received⟩
        have perm := (Paging.drain_perm_iff positive _ distinct).mpr separate _ got drained
        rw [received, Requester.start, List.nil_append, perm.count_eq entry]
        exact List.count_eq_one_of_mem (List.Nodup.of_map _ distinct) member

/-! Two entries of one nanosecond, stored with the greater id first. -/

namespace Sample

def storageOrder : ScanOrder := ⟨fun _ rows => rows, fun _ rows => List.Perm.refl rows⟩

def requester : Requester crypto := ⟨compositor 2, fun _ => "request", fun _ => by decide⟩

def tiedRow (entryId : String) : LedgerRow where
  entryId := entryId
  fromCompositor := (compositor 2).pubkeyHex
  toCompositor := (compositor 1).pubkeyHex
  amountCredits := 1
  workItemId := "work-1"
  icpEnvelopeHash := "ab12"
  modelIdentifier := "mock"
  tokensOut := 10
  durationMs := 20
  createdAtNs := 1000
  fromSignature := ""
  toSignature := ""
  settled := false

def tiedLedger : LedgerTable := ⟨[tiedRow "b", tiedRow "a"], by decide⟩

end Sample

/-- With pages of one entry, the entry of smaller id is skipped. -/
theorem reconciliation_skips_entry :
    ¬ ReconciliationLossless Sample.storageOrder Sample.tiedLedger (Sample.compositor 1)
      Sample.requester 1 := by
  intro lossless
  have ended : (Sample.requester.requestReconciliation .reliable
      (answering (Sample.compositor 1) Sample.storageOrder Sample.tiedLedger)
      (Sample.compositor 1).pubkeyHex "peer" 1 50).2 = none := by decide +kernel
  have listed : rowToEntry (Sample.tiedRow "a") ∈ exportStatement Sample.storageOrder
      Sample.tiedLedger Sample.requester.compositor.pubkeyHex := by decide +kernel
  have missing : (Sample.requester.requestReconciliation .reliable
      (answering (Sample.compositor 1) Sample.storageOrder Sample.tiedLedger)
      (Sample.compositor 1).pubkeyHex "peer" 1 50).1.accumulated.count
        (rowToEntry (Sample.tiedRow "a")) = 0 := by decide +kernel
  have once := lossless .reliable "peer" 50 ended _ listed
  rw [missing] at once
  cases once

end Gyza

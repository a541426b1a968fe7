import Gyza.LedgerStore
import Gyza.Lib.Buckets
import Gyza.Lib.Checks
import Gyza.Lib.PyObject
import Gyza.ReconcileInbox

/-! Reconciliation against the entries a peer returns (`request_reconciliation` and
`reconcile_with_peer`), which are whatever objects its messages contain. -/

namespace Gyza.RawReconcile

open CanonJson (Doc)
open PyNumber (Number)
open PyObject (Scalar)

inductive BucketError where
  | keyError
  | typeError
  deriving DecidableEq

/-- A scalar of decoded JSON; lists and objects are none. -/
def scalarOf {φ : Type} : Doc φ → Option (Scalar φ)
  | .null => some .none
  | .bool value => some (.bool value)
  | .int value => some (.number (.int value))
  | .float value => some (.number (.float value))
  | .str text => some (.str text)
  | .arr _ | .obj _ => none

/-- `e["entry_id"]`, as the key of a dictionary: lists and objects cannot be hashed. -/
def idOf (entry : Fields Float) : Except BucketError (Scalar Float) :=
  match entry.lookup "entry_id" with
  | none => .error .keyError
  | some value =>
      match scalarOf value with
      | none => .error .typeError
      | some id => .ok id

def amountScalar : Amount → Scalar Float
  | .real value => .number (.float value)
  | .whole value => .number (.int value)
  | .bool value => .bool value
  | .other _ => .none

/-- `to_dict`. -/
def entryFields (entry : LedgerEntry) : List (String × Scalar Float) :=
  [("entry_id", .str entry.entryId),
    ("from_compositor", .str entry.fromCompositor),
    ("to_compositor", .str entry.toCompositor),
    ("amount_credits", amountScalar entry.amountCredits),
    ("work_item_id", .str entry.workItemId),
    ("icp_envelope_hash", .str entry.icpEnvelopeHash),
    ("model_identifier", .str entry.modelIdentifier),
    ("tokens_out", .number (.int entry.tokensOut)),
    ("duration_ms", .number (.int entry.durationMs)),
    ("created_at_ns", .number (.int entry.createdAtNs)),
    ("from_signature", .str entry.fromSignature),
    ("to_signature", .str entry.toSignature),
    ("settled", .bool entry.settled)]

def reconcileFields : List String :=
  ["entry_id", "from_compositor", "to_compositor", "amount_credits", "work_item_id",
    "icp_envelope_hash", "from_signature", "to_signature"]

section Compare

-- what a number is worth, and `<=` of two of them
variable {κ : Type} [DecidableEq κ] (worth : Number Float → κ)
  (numberLe : Number Float → Number Float → Bool)

/-- What a key is to a dictionary. -/
abbrev Identity (κ : Type) := Option (String ⊕ κ)

/-- A scalar is no list and no object. -/
def sameValue (ours : Scalar Float) (theirs : Doc Float) : Bool :=
  (scalarOf theirs).any (ours.eq worth)

/-- `_entries_equivalent`. -/
def entriesEquivalent (ours : LedgerEntry) (theirs : Fields Float) : Bool :=
  reconcileFields.all fun name =>
    sameValue worth (((entryFields ours).lookup name).getD .none) (field theirs name)

def theirKey (row : Scalar Float × Fields Float) : Identity κ := row.1.identity worth

def textKey (text : String) : Identity κ := some (.inl text)

def ownKey (entry : LedgerEntry) : Identity κ := textKey entry.entryId

def rowAlike (entry : LedgerEntry) (row : Scalar Float × Fields Float) : Bool :=
  entriesEquivalent worth entry row.2

abbrev Theirs := Table (theirKey worth)

/-- A repeated id keeps its key and takes the new entry. -/
def replaceEntry (old new : Scalar Float × Fields Float) : Scalar Float × Fields Float :=
  (old.1, new.2)

omit [DecidableEq κ] in
theorem theirKey_replaceEntry (old new : Scalar Float × Fields Float) :
    theirKey worth (replaceEntry old new) = theirKey worth old := rfl

/-- Their entries by id. -/
def collect (theirs : Theirs worth) : List (Fields Float) → Except BucketError (Theirs worth)
  | [] => .ok theirs
  | entry :: rest =>
      match idOf entry with
      | .error error => .error error
      | .ok id =>
          collect (theirs.upsert replaceEntry (theirKey_replaceEntry worth) (id, entry)) rest

def isText : Scalar Float → Bool
  | .str _ => true
  | _ => false

def isNumber : Scalar Float → Bool
  | .bool _ | .number _ => true
  | _ => false

def scalarLe : Scalar Float → Scalar Float → Bool
  | .str left, .str right => left ≤ right
  | .number left, .number right => numberLe left right
  | .number left, .bool right => numberLe left (.int right.toNat)
  | .bool left, .number right => numberLe (.int left.toNat) right
  | .bool left, .bool right => numberLe (.int left.toNat) (.int right.toNat)
  | _, _ => true

/-- `sorted(ids)`: two ids are compared if both are texts or both numbers. -/
def sortedIds (ids : List (Scalar Float)) : Except BucketError (List (Scalar Float)) :=
  if ids.length ≤ 1 ∨ ids.all isText ∨ ids.all isNumber then
    .ok (ids.mergeSort (scalarLe numberLe))
  else .error .typeError

def sortedTexts (entries : List LedgerEntry) : List String :=
  (entries.map LedgerEntry.entryId).mergeSort (· ≤ ·)

structure Diff where
  agreed : List String
  disputed : List String
  missingOurs : List (Scalar Float)
  missingTheirs : List String

def reconcileWithPeer (ours : List LedgerEntry) (theirEntries : List (Fields Float)) :
    Except BucketError Diff :=
  match collect worth Table.empty theirEntries with
  | .error error => .error error
  | .ok theirs =>
      (sortedIds numberLe
        ((Buckets.missingOurs ownKey (theirKey worth) ours theirs.rows).map Prod.fst)).map
        fun missingOurs =>
          { agreed := sortedTexts
              (Buckets.agreed ownKey (theirKey worth) (rowAlike worth) ours theirs.rows)
            disputed := sortedTexts
              (Buckets.disputed ownKey (theirKey worth) (rowAlike worth) ours theirs.rows)
            missingOurs := missingOurs
            missingTheirs := sortedTexts
              (Buckets.missingTheirs ownKey (theirKey worth) ours theirs.rows) }

/-! The pages of a reconciliation. -/

/-- Whether the request of a page is sent, and the messages handled before its record is read. -/
structure PageTraffic where
  sent : Bool
  delivered : List Incoming

structure Collected where
  pages : Nat
  accumulated : List (Fields Float)

structure ReconcileResult where
  peerCompositor : String
  agreed : List String
  disputed : List String
  missingOurs : List (Scalar Float)
  missingTheirs : List String
  pages : Nat
  entriesReceived : Nat
  error : Option String

/-- What a call returns, the ledger after it, and the disputes it records of the peer. -/
structure Outcome where
  result : Except BucketError ReconcileResult
  ledger : LedgerTable
  disputes : List String

/-- A call of a service, with what happens on the wire while it runs. -/
structure ReconcileCall where
  own : String
  order : ScanOrder
  ledger : LedgerTable
  reputation : Bool
  peerCompositor : String
  peerId : String
  maxPages : Int
  requestId : Nat → String
  traffic : Nat → PageTraffic

def ReconcileResult.refused (peerCompositor error : String) : ReconcileResult where
  peerCompositor := peerCompositor
  agreed := []
  disputed := []
  missingOurs := []
  missingTheirs := []
  pages := 0
  entriesReceived := 0
  error := some error

namespace ReconcileCall

variable (py : Python Float) (call : ReconcileCall)

/-- The record of a page as it is registered. -/
def registered (page : Nat) : Pendings Float := fun id =>
  if id = call.requestId page then some (.fresh call.peerCompositor) else none

/-- The record of a page when the wait for it is over. -/
def awaitResponse (page : Nat) : Pending Float :=
  let pendings := (call.traffic page).delivered.foldl
    (fun pendings incoming => (handleReconcileResponse py pendings incoming).1)
    (call.registered page)
  (pendings (call.requestId page)).getD (.fresh call.peerCompositor)

/-- `while pages < max_pages`, with the pages still allowed as first argument. -/
def fetchPages : Nat → Collected → Collected × Option String
  | 0, collected => (collected, some "page_cap_exceeded")
  | allowed + 1, collected =>
      if (call.traffic collected.pages).sent = false then (collected, some "send_failed")
      else
        let pending := call.awaitResponse py collected.pages
        if pending.signalled = false then (collected, some "timeout")
        else if pending.error.isSome then (collected, pending.error)
        else
          let next : Collected :=
            { pages := collected.pages + 1
              accumulated := collected.accumulated ++ pending.entries }
          if pending.hasMore then fetchPages allowed next else (next, none)

/-- What the peer has returned when the loop ends. -/
def collected : Collected × Option String := call.fetchPages py call.maxPages.toNat ⟨0, []⟩

def received : List (Fields Float) := (call.collected py).1.accumulated

/-- Our view of the peer. -/
def ours : List LedgerEntry := exportStatement call.order call.ledger call.peerCompositor

/-- The end of the call: one dispute is recorded for each disputed entry, if there is a store. -/
def report (diff : Diff) : Outcome where
  result := .ok
    { peerCompositor := call.peerCompositor
      agreed := diff.agreed
      disputed := diff.disputed
      missingOurs := diff.missingOurs
      missingTheirs := diff.missingTheirs
      pages := (call.collected py).1.pages
      entriesReceived := (call.received py).length
      error := (call.collected py).2 }
  ledger := call.ledger
  disputes := if call.reputation then diff.disputed.map fun _ => call.peerCompositor else []

/-- `request_reconciliation`. -/
def run : Outcome :=
  if call.peerCompositor = "" ∨ call.peerId = "" then
    ⟨.ok (.refused call.peerCompositor "peer_compositor and peer_id are required"), call.ledger, []⟩
  else if call.peerCompositor = call.own then
    ⟨.ok (.refused call.peerCompositor "cannot reconcile with self"), call.ledger, []⟩
  else
    match reconcileWithPeer worth numberLe call.ours (call.received py) with
    | .error error => ⟨.error error, call.ledger, []⟩
    | .ok diff => call.report py diff

end ReconcileCall

/-! What the entries received have for ids. -/

/-- Every entry has an id that can be a key. -/
def Identified (entries : List (Fields Float)) : Prop :=
  ∀ entry ∈ entries, ∃ id, idOf entry = .ok id

/-- An entry with this id is among those received. -/
def HasId (entries : List (Fields Float)) (id : Scalar Float) : Prop :=
  ∃ entry ∈ entries, idOf entry = .ok id

def HasKey (entries : List (Fields Float)) (key : Identity κ) : Prop :=
  ∃ id, HasId entries id ∧ id.identity worth = key

variable {worth}

theorem collect_keys {entries : List (Fields Float)} {theirs all : Theirs worth}
    (collected : collect worth theirs entries = .ok all) (key : Identity κ) :
    key ∈ all.rows.map (theirKey worth) ↔
      key ∈ theirs.rows.map (theirKey worth) ∨ HasKey worth entries key := by
  induction entries generalizing theirs with
  | nil =>
      cases collected
      simp [HasKey, HasId]
  | cons entry rest ih =>
      rw [collect] at collected
      cases named : idOf entry with
      | error error =>
          rw [named] at collected
          cases collected
      | ok id =>
          rw [named] at collected
          have grown : key ∈ (theirs.upsert replaceEntry (theirKey_replaceEntry worth)
              (id, entry)).rows.map (theirKey worth) ↔
                key ∈ theirs.rows.map (theirKey worth) ∨ id.identity worth = key := by
            have found := Table.get?_upsert theirs replaceEntry (theirKey_replaceEntry worth)
              (id, entry) key
            have same : theirKey worth (id, entry) = id.identity worth := rfl
            rw [same] at found
            rw [← not_iff_not, ← Table.get?_eq_none, not_or, ← Table.get?_eq_none, found]
            split_ifs with hit
            · simp [hit]
            · simp [hit]
          rw [ih collected, grown, or_assoc]
          apply or_congr_right
          constructor
          · rintro (hit | ⟨other, ⟨listed, member, found⟩, hit⟩)
            · exact ⟨id, ⟨entry, List.mem_cons_self, named⟩, hit⟩
            · exact ⟨other, ⟨listed, List.mem_cons_of_mem entry member, found⟩, hit⟩
          · rintro ⟨other, ⟨listed, member, found⟩, hit⟩
            rcases List.mem_cons.mp member with rfl | later
            · cases named.symm.trans found
              exact Or.inl hit
            · exact Or.inr ⟨other, ⟨listed, later, found⟩, hit⟩

theorem collect_ok_iff (entries : List (Fields Float)) (theirs : Theirs worth) :
    (∃ all, collect worth theirs entries = .ok all) ↔ Identified entries := by
  induction entries generalizing theirs with
  | nil => simp [collect, Identified]
  | cons entry rest ih =>
      rw [Identified, List.forall_mem_cons, collect]
      cases named : idOf entry with
      | error error => simp
      | ok id => simpa [Identified] using ih _

/-! When ids can be sorted. -/

/-- No two ids, or only texts, or only numbers. -/
def Sortable (worth : Number Float → κ) (ids : Scalar Float → Prop) : Prop :=
  (∀ first second, ids first → ids second → first.identity worth = second.identity worth) ∨
    (∀ id, ids id → isText id = true) ∨ ∀ id, ids id → isNumber id = true

omit [DecidableEq κ] in
theorem isText_of_identity {first second : Scalar Float}
    (same : first.identity worth = second.identity worth) : isText first = isText second := by
  cases first <;> cases second <;> simp_all [Scalar.identity, isText]

omit [DecidableEq κ] in
theorem isNumber_of_identity {first second : Scalar Float}
    (same : first.identity worth = second.identity worth) : isNumber first = isNumber second := by
  cases first <;> cases second <;> simp_all [Scalar.identity, isNumber]

theorem sortedIds_ok_iff (ids : List (Scalar Float)) :
    (∃ sorted, sortedIds numberLe ids = .ok sorted) ↔
      ids.length ≤ 1 ∨ ids.all isText ∨ ids.all isNumber := by
  rw [sortedIds]
  split_ifs with comparable
  · exact ⟨fun _ => comparable, fun _ => ⟨_, rfl⟩⟩
  · exact ⟨fun sorted => (by cases sorted.choose_spec), fun other => absurd other comparable⟩

theorem sortedIds_perm {ids sorted : List (Scalar Float)}
    (made : sortedIds numberLe ids = .ok sorted) : sorted.Perm ids := by
  rw [sortedIds] at made
  split_ifs at made
  cases made
  exact List.mergeSort_perm ids _

omit [DecidableEq κ] in
/-- Whether distinct ids can be sorted is a matter of what they are worth. -/
theorem sortable_iff {ids : List (Scalar Float)} {among : Scalar Float → Prop}
    (distinct : (ids.map (Scalar.identity worth)).Nodup)
    (same : ∀ key, key ∈ ids.map (Scalar.identity worth) ↔
      ∃ id, among id ∧ id.identity worth = key) :
    (ids.length ≤ 1 ∨ ids.all isText ∨ ids.all isNumber) ↔ Sortable worth among := by
  have listed : ∀ id, among id → ∃ other ∈ ids, other.identity worth = id.identity worth :=
    fun id member => List.mem_map.mp ((same _).mpr ⟨id, member, rfl⟩)
  have held : ∀ id ∈ ids, ∃ other, among other ∧ other.identity worth = id.identity worth :=
    fun id member => (same _).mp (List.mem_map_of_mem member)
  have kind (test : Scalar Float → Bool) (blind : ∀ first second : Scalar Float,
      first.identity worth = second.identity worth → test first = test second) :
      ids.all test = true ↔ ∀ id, among id → test id = true := by
    rw [List.all_eq_true]
    constructor
    · intro all id member
      obtain ⟨other, inside, alike⟩ := listed id member
      exact blind other id alike ▸ all other inside
    · intro all id member
      obtain ⟨other, inside, alike⟩ := held id member
      exact blind other id alike ▸ all other inside
  have single : ids.length ≤ 1 ↔ ∀ first second, among first → among second →
      first.identity worth = second.identity worth := by
    rcases ids with _ | ⟨left, _ | ⟨right, rest⟩⟩
    · refine ⟨fun _ first _ inFirst _ => ?_, fun _ => Nat.zero_le 1⟩
      obtain ⟨other, inside, -⟩ := listed first inFirst
      cases inside
    · refine ⟨fun _ first second inFirst inSecond => ?_, fun _ => le_rfl⟩
      obtain ⟨other, inside, leftAlike⟩ := listed first inFirst
      obtain ⟨another, inside', rightAlike⟩ := listed second inSecond
      cases List.mem_singleton.mp inside
      cases List.mem_singleton.mp inside'
      exact leftAlike.symm.trans rightAlike
    · refine ⟨fun short => absurd short (by simp), fun alike => ?_⟩
      obtain ⟨first, inFirst, leftAlike⟩ := held left (by simp)
      obtain ⟨second, inSecond, rightAlike⟩ := held right (by simp)
      have equal := alike first second inFirst inSecond
      rw [leftAlike, rightAlike] at equal
      simp [equal] at distinct
  rw [single, kind isText fun _ _ => isText_of_identity, kind isNumber fun _ _ =>
    isNumber_of_identity, Sortable]

/-! The buckets. -/

/-- The four buckets are the common ids, theirs alone and ours alone, each id once. -/
structure Partition (worth : Number Float → κ) (ours : List LedgerEntry)
    (received : List (Fields Float)) (agreed disputed : List String)
    (missingOurs : List (Scalar Float)) (missingTheirs : List String) : Prop where
  common : ∀ key, key ∈ agreed.map textKey ++ disputed.map textKey ↔
    key ∈ ours.map ownKey ∧ HasKey worth received key
  onlyTheirs : ∀ key, key ∈ missingOurs.map (Scalar.identity worth) ↔
    HasKey worth received key ∧ key ∉ ours.map ownKey
  onlyOurs : ∀ key, key ∈ missingTheirs.map textKey ↔
    key ∈ ours.map ownKey ∧ ¬HasKey worth received key
  once : (agreed.map textKey ++ disputed.map textKey ++
    (missingOurs.map (Scalar.identity worth) ++ missingTheirs.map textKey)).Nodup

/-- Every entry has an id that can be a key, and the ids that are not ours can be sorted. -/
structure Sound (worth : Number Float → κ) (ours : List LedgerEntry)
    (received : List (Fields Float)) : Prop where
  identified : Identified received
  sortable : Sortable worth fun id => HasId received id ∧ id.identity worth ∉ ours.map ownKey

omit [DecidableEq κ] in
theorem sortedTexts_keys (entries : List LedgerEntry) :
    ((sortedTexts entries).map textKey : List (Identity κ)).Perm (entries.map ownKey) := by
  have sorted := (List.mergeSort_perm (entries.map LedgerEntry.entryId) (· ≤ ·)).map
    (textKey : String → Identity κ)
  rw [List.map_map] at sorted
  exact sorted

theorem collected_keys {entries : List (Fields Float)} {theirs : Theirs worth}
    (collected : collect worth Table.empty entries = .ok theirs) (key : Identity κ) :
    key ∈ theirs.rows.map (theirKey worth) ↔ HasKey worth entries key := by
  rw [collect_keys collected]
  simp [Table.empty]

omit [DecidableEq κ] in
theorem ownKeys_nodup {ours : List LedgerEntry}
    (distinct : (ours.map LedgerEntry.entryId).Nodup) :
    (ours.map (ownKey : LedgerEntry → Identity κ)).Nodup := by
  have injective : Function.Injective (textKey : String → Identity κ) := by
    intro first second same
    simpa [textKey] using same
  have mapped := distinct.map injective
  rw [List.map_map] at mapped
  exact mapped

/-- The ids of theirs alone, as the code lists them before it sorts them. -/
def aloneIds (ours : List LedgerEntry) (theirs : Theirs worth) : List (Scalar Float) :=
  (Buckets.missingOurs ownKey (theirKey worth) ours theirs.rows).map Prod.fst

theorem aloneIds_keys (ours : List LedgerEntry) (theirs : Theirs worth) :
    (aloneIds ours theirs).map (Scalar.identity worth) =
      (Buckets.missingOurs ownKey (theirKey worth) ours theirs.rows).map (theirKey worth) := by
  rw [aloneIds, List.map_map]
  rfl

theorem aloneIds_nodup (ours : List LedgerEntry) (theirs : Theirs worth) :
    ((aloneIds ours theirs).map (Scalar.identity worth)).Nodup := by
  rw [aloneIds_keys]
  exact theirs.distinct.sublist (List.filter_sublist.map _)

theorem mem_aloneIds {ours : List LedgerEntry} {entries : List (Fields Float)}
    {theirs : Theirs worth} (collected : collect worth Table.empty entries = .ok theirs)
    (key : Identity κ) : key ∈ (aloneIds ours theirs).map (Scalar.identity worth) ↔
      HasKey worth entries key ∧ key ∉ ours.map ownKey := by
  rw [aloneIds_keys, Buckets.missingOurs_keys, collected_keys collected]

theorem reconcileWithPeer_ok_iff (ours : List LedgerEntry) (entries : List (Fields Float)) :
    (∃ diff, reconcileWithPeer worth numberLe ours entries = .ok diff) ↔
      Sound worth ours entries := by
  rw [reconcileWithPeer]
  cases collected : collect worth Table.empty entries with
  | error error =>
      refine ⟨fun made => (by cases made.choose_spec), fun sound => ?_⟩
      obtain ⟨all, made⟩ := (collect_ok_iff entries (Table.empty : Theirs worth)).mpr
        sound.identified
      cases collected.symm.trans made
  | ok theirs =>
      have identified :=
        (collect_ok_iff entries (Table.empty : Theirs worth)).mp ⟨theirs, collected⟩
      have sortable : (∃ sorted, sortedIds numberLe (aloneIds ours theirs) = .ok sorted) ↔
          Sortable worth fun id => HasId entries id ∧ id.identity worth ∉ ours.map ownKey := by
        rw [sortedIds_ok_iff]
        refine sortable_iff (aloneIds_nodup ours theirs) fun key => ?_
        rw [mem_aloneIds collected]
        constructor
        · rintro ⟨⟨id, member, rfl⟩, alone⟩
          exact ⟨id, ⟨member, alone⟩, rfl⟩
        · rintro ⟨id, ⟨member, alone⟩, rfl⟩
          exact ⟨⟨id, member, rfl⟩, alone⟩
      constructor
      · rintro ⟨diff, made⟩
        obtain ⟨sorted, ids, -⟩ := (Checks.map_ok_iff _ _ _).mp made
        exact ⟨identified, sortable.mp ⟨sorted, ids⟩⟩
      · intro sound
        obtain ⟨sorted, ids⟩ := sortable.mpr sound.sortable
        exact ⟨_, congrArg (Except.map _) ids⟩

theorem reconcileWithPeer_partition {ours : List LedgerEntry} {entries : List (Fields Float)}
    {diff : Diff} (distinct : (ours.map LedgerEntry.entryId).Nodup)
    (made : reconcileWithPeer worth numberLe ours entries = .ok diff) :
    Partition worth ours entries diff.agreed diff.disputed diff.missingOurs diff.missingTheirs := by
  rw [reconcileWithPeer] at made
  cases collected : collect worth Table.empty entries with
  | error error =>
      rw [collected] at made
      cases made
  | ok theirs =>
      rw [collected] at made
      obtain ⟨sorted, ids, rfl⟩ := (Checks.map_ok_iff _ _ _).mp made
      have own : (ours.map (ownKey : LedgerEntry → Identity κ)).Nodup := ownKeys_nodup distinct
      have missing : (sorted.map (Scalar.identity worth)).Perm
          ((Buckets.missingOurs ownKey (theirKey worth) ours
            theirs.rows).map (theirKey worth)) := by
        rw [← aloneIds_keys]
        exact (sortedIds_perm numberLe ids).map _
      constructor
      · intro key
        rw [((sortedTexts_keys _).append (sortedTexts_keys _)).mem_iff, Buckets.common_keys,
          collected_keys collected]
      · intro key
        rw [missing.mem_iff, Buckets.missingOurs_keys, collected_keys collected]
      · intro key
        rw [(sortedTexts_keys _).mem_iff, Buckets.missingTheirs_keys, collected_keys collected]
      · have distinctKeys := Buckets.keys_nodup (rowAlike worth) own theirs.distinct
        refine (List.Perm.nodup_iff ?_).mpr distinctKeys
        exact ((sortedTexts_keys _).append (sortedTexts_keys _)).append
          (missing.append (sortedTexts_keys _))

/-! A whole call. -/

end Compare

section Call

variable {κ : Type} [DecidableEq κ] (worth : Number Float → κ)
  (numberLe : Number Float → Number Float → Bool) (py : Python Float) (call : ReconcileCall)

/-- The peer is asked for its entries. -/
def Asks : Prop :=
  call.peerCompositor ≠ "" ∧ call.peerId ≠ "" ∧ call.peerCompositor ≠ call.own

/-- The call returns, leaves the ledger alone and, if it asked, returns the buckets. -/
def Survives : Prop :=
  (call.run worth numberLe py).ledger = call.ledger ∧
    ∃ result, (call.run worth numberLe py).result = .ok result ∧
      (Asks call → Partition worth call.ours (call.received py) result.agreed result.disputed
        result.missingOurs result.missingTheirs)

/-- A page whose only message answers it. -/
theorem awaitResponse_of_answers {py : Python Float} {call : ReconcileCall} {page : Nat}
    {incoming : Incoming} {d : Fields Float} (single : (call.traffic page).delivered = [incoming])
    (answers : Answers py incoming (call.requestId page) (.fresh call.peerCompositor) d) :
    call.awaitResponse py page = (fill py (.fresh call.peerCompositor) d).1 := by
  have registered : call.registered page (call.requestId page) =
      some (.fresh call.peerCompositor) := if_pos rfl
  have handled := handled_of_answers py registered answers
  rw [ReconcileCall.awaitResponse, single, List.foldl_cons, List.foldl_nil, handled,
    Option.getD_some]

theorem run_ledger : (call.run worth numberLe py).ledger = call.ledger := by
  rw [ReconcileCall.run]
  split
  · rfl
  · split
    · rfl
    · split
      · rfl
      · rfl

theorem run_of_asks {call : ReconcileCall} (asks : Asks call) : call.run worth numberLe py =
    match reconcileWithPeer worth numberLe call.ours (call.received py) with
    | .error error => ⟨.error error, call.ledger, []⟩
    | .ok diff => call.report py diff := by
  obtain ⟨named, reachable, other⟩ := asks
  rw [ReconcileCall.run, if_neg (not_or.mpr ⟨named, reachable⟩), if_neg other]

/-- A call that is refused asks nobody and raises nothing. -/
theorem run_of_not_asks {call : ReconcileCall} (refused : ¬Asks call) :
    ∃ result, (call.run worth numberLe py).result = .ok result := by
  rw [ReconcileCall.run]
  split
  · exact ⟨_, rfl⟩
  · rename_i given
    split
    · exact ⟨_, rfl⟩
    · rename_i other
      obtain ⟨named, reachable⟩ := not_or.mp given
      exact absurd ⟨named, reachable, other⟩ refused

theorem reconciliation_survives_iff :
    Survives worth numberLe py call ↔ (Asks call → Sound worth call.ours (call.received py)) := by
  constructor
  · rintro ⟨-, result, returned, -⟩ asks
    rw [run_of_asks worth numberLe py asks] at returned
    apply (reconcileWithPeer_ok_iff numberLe _ _).mp
    cases compared : reconcileWithPeer worth numberLe call.ours (call.received py) with
    | error error =>
        rw [compared] at returned
        cases returned
    | ok diff => exact ⟨diff, rfl⟩
  · intro sound
    refine ⟨run_ledger worth numberLe py call, ?_⟩
    by_cases asks : Asks call
    · obtain ⟨diff, compared⟩ := (reconcileWithPeer_ok_iff numberLe _ _).mpr (sound asks)
      have distinct := exportStatement_distinct call.order call.ledger call.peerCompositor
      have ran := run_of_asks worth numberLe py asks
      rw [compared] at ran
      rw [ran]
      exact ⟨_, rfl, fun _ => reconcileWithPeer_partition numberLe distinct compared⟩
    · obtain ⟨result, returned⟩ := run_of_not_asks worth numberLe py asks
      exact ⟨result, returned, fun asked => absurd asked asks⟩

end Call

namespace Sample

def anonymousText : String :=
  "\x7b\"request_id\":\"r1\",\"from_compositor\":\"" ++ asked.pubkeyHex ++
    "\",\"entries\":[\x7b\x7d]\x7d"

/-- A response with one entry that has no id. -/
def anonymous : Fields Float :=
  [("request_id", .str "r1"), ("from_compositor", .str asked.pubkeyHex),
    ("entries", .arr [.obj []])]

def floats : Python Float where
  loads := reads anonymousText (.obj anonymous)
  str
    | .str text => text
    | _ => ""
  str_text _ := rfl
  isZero value := value == 0
  truncate _ := none
  parseInt _ := none

def reply : Incoming := ⟨asked.pubkeyHex, Hex.utf8 anonymousText⟩

def pageCall : ReconcileCall where
  own := stranger.pubkeyHex
  order := ⟨fun _ rows => rows, fun _ _ => .refl _⟩
  ledger := Table.empty
  reputation := true
  peerCompositor := asked.pubkeyHex
  peerId := "peer-1"
  maxPages := 50
  requestId _ := "r1"
  traffic _ := ⟨true, [reply]⟩

theorem pageCall_asks : Asks pageCall := by
  refine ⟨?_, by decide, ?_⟩
  · exact asked.pubkeyHex_ne_empty
  · show asked.pubkeyHex ≠ stranger.pubkeyHex
    decide +kernel

theorem anonymous_answers : Answers floats reply "r1" (.fresh asked.pubkeyHex) anonymous := by
  have loaded : floats.loads reply.payload = some (.obj anonymous) := by
    simp only [floats, reply, reads_self]
  exact ⟨loaded, textOr_str floats "r1", by decide, textOr_str floats asked.pubkeyHex⟩

def anonymousPage : Pending Float :=
  { (Pending.fresh asked.pubkeyHex : Pending Float) with entries := [[]], signalled := true }

theorem pageCall_awaits : pageCall.awaitResponse floats 0 = anonymousPage := by
  have awaited : pageCall.awaitResponse floats 0 =
      (fill floats (.fresh asked.pubkeyHex) anonymous).1 :=
    awaitResponse_of_answers rfl anonymous_answers
  have listed : rawEntries floats anonymous = some [.obj []] := rfl
  have cursor : intOr floats (field anonymous "cursor_timestamp_ns") = some 0 := rfl
  rw [awaited, fill, listed]
  simp only [cursor]
  rfl

theorem pageCall_received : pageCall.received floats = [[]] := by
  have pages : pageCall.collected floats = (⟨1, [[]]⟩, none) := by
    rw [ReconcileCall.collected]
    show pageCall.fetchPages floats (49 + 1) ⟨0, []⟩ = _
    rw [ReconcileCall.fetchPages, pageCall_awaits]
    rfl
  rw [ReconcileCall.received, pages]

end Sample

/-- An entry without an id raises. -/
theorem anonymous_entry_raises : ¬Survives (fun number => number) (fun _ _ => true) Sample.floats
    Sample.pageCall := by
  rintro ⟨-, result, returned, -⟩
  have collected : collect (fun number : Number Float => number) Table.empty [[]] =
      .error .keyError := rfl
  rw [run_of_asks _ _ _ Sample.pageCall_asks, Sample.pageCall_received, reconcileWithPeer,
    collected] at returned
  cases returned

end Gyza.RawReconcile

import Gyza.Crypto
import Gyza.Lib.CanonJson
import Gyza.Lib.HashChain
import Gyza.Lib.Run

/-! The review log (`gyza/containment/review.py`): escalations and the reviews that
answer them, in one hash-chained table.

A payload is kept as it was written; reading it gives its normal form. A text that
is no document, or holds a number that is not finite, makes `verify_chain` raise,
and so has no row here. -/

namespace Gyza

open CanonJson (Doc FloatText)
open Hex (Bytes utf8)

namespace Review

def genesis : String := String.ofList (List.replicate 64 '0')

structure ReviewRow (φ : Type) where
  seq : Int
  recordId : String
  kind : String
  payload : Doc φ
  atNs : Int
  prevHash : String
  hash : String

/-- The rows in the order of their primary key. -/
structure ReviewLog (φ : Type) where
  rows : List (ReviewRow φ)
  ordered : rows.Pairwise (fun first second => first.seq < second.seq)

/-- The values are those of the payload, whatever they are. -/
structure Escalation (φ : Type) where
  recordId : String
  harmClass : Doc φ
  measured : Doc φ
  bound : Doc φ
  reason : Doc φ
  atNs : Int

inductive ReviewError where
  | badDecision (decision : String)
  | unaccountable
  | notPending (recordId : String)
  | notSerialisable
  | integrityError
  | missing (key : String)
  | notObject
  deriving DecidableEq

variable {φ : Type}

namespace ReviewLog

def empty : ReviewLog φ := ⟨[], List.Pairwise.nil⟩

/-- `INSERT`, at the place of the new key; a key that is there already is refused. -/
def insert (log : ReviewLog φ) (row : ReviewRow φ) : Except ReviewError (ReviewLog φ) :=
  if ∃ old ∈ log.rows, old.seq = row.seq then .error .integrityError
  else
    .ok ⟨log.rows.filter (fun old => old.seq < row.seq) ++
      row :: log.rows.filter (fun old => row.seq < old.seq), by
        rw [List.pairwise_append, List.pairwise_cons]
        refine ⟨log.ordered.filter _, ⟨?_, log.ordered.filter _⟩, ?_⟩
        · intro later member
          simpa using (List.mem_filter.mp member).2
        · intro before member after member'
          have below : before.seq < row.seq := by simpa using (List.mem_filter.mp member).2
          rcases List.mem_cons.mp member' with rfl | member'
          · exact below
          · have above : row.seq < after.seq := by simpa using (List.mem_filter.mp member').2
            omega⟩

/-- `SELECT hash FROM review_log ORDER BY seq DESC LIMIT 1`. -/
def lastHash (log : ReviewLog φ) : String := HashChain.head ReviewRow.hash genesis log.rows

/-- `SELECT COALESCE(MAX(seq), 0) + 1`. -/
def nextSeq (log : ReviewLog φ) : Int := (log.rows.getLast?.map ReviewRow.seq).getD 0 + 1

end ReviewLog

section Append

variable (crypto : Crypto) (repr : φ → List Char)

/-- `_hash`; the payload is written as it stands, its keys in the order they have. -/
def rowHash (seq : Int) (kind : String) (payload : Doc φ) (atNs : Int) (prev : String) : String :=
  crypto.hexdigest (utf8 (Doc.dumps repr (.obj [("at_ns", .int atNs), ("kind", .str kind),
    ("payload", payload), ("prev", .str prev), ("seq", .int seq)])))

/-- The row of an `_append` that read the hash `prev` and the number `seq`. -/
def newRow (recordId kind : String) (payload : Doc φ) (seq : Int) (prev : String) (now : Int) :
    ReviewRow φ where
  seq := seq
  recordId := recordId
  kind := kind
  payload := payload
  atNs := now
  prevHash := prev
  hash := rowHash crypto repr seq kind payload now prev

/-- The last statement of `_append`. No payload is one that `json.dumps` refuses. -/
def insertRow (log : ReviewLog φ) (recordId kind : String) (payload : Option (Doc φ)) (seq : Int)
    (prev : String) (now : Int) : Except ReviewError (ReviewLog φ) :=
  match payload with
  | none => .error .notSerialisable
  | some document => log.insert (newRow crypto repr recordId kind document seq prev now)

/-- `_append` with the table to itself. -/
def append (log : ReviewLog φ) (recordId kind : String) (payload : Option (Doc φ)) (now : Int) :
    Except ReviewError (ReviewLog φ) :=
  insertRow crypto repr log recordId kind payload log.nextSeq log.lastHash now

/-! The two calls that write. -/

/-- A measure or bound that is not finite has no payload. -/
def escalationPayload (harmClass : String) (measured bound : Option φ) (reason : String) :
    Option (Doc φ) := do
  let level ← measured
  let limit ← bound
  pure (.obj [("bound", .float limit), ("harm_class", .str harmClass), ("measured", .float level),
    ("reason", .str reason)])

def escalate (log : ReviewLog φ) (recordId harmClass : String) (measured bound : Option φ)
    (reason : String) (now : Int) : Except ReviewError (ReviewLog φ) :=
  append crypto repr log recordId "ESCALATION" (escalationPayload harmClass measured bound reason) now

/-- The arguments of one `resolve`; the origin as `json.dumps` writes its keys, which
for keys that are not texts need not be their order as texts. -/
structure Decision (φ : Type) where
  recordId : String
  reviewer : String
  decision : String
  note : String
  newOrigin : Option (List (String × Doc φ))

def reviewPayload (review : Decision φ) : Option (Doc φ) :=
  review.newOrigin.map (fun origin => .obj [("decision", .str review.decision),
    ("new_origin", .obj origin), ("note", .str review.note), ("reviewer", .str review.reviewer)])

/-- What `str.strip` removes. -/
def isPythonSpace (c : Char) : Bool :=
  ('\t' ≤ c ∧ c ≤ '\r') ∨ ('\x1c' ≤ c ∧ c ≤ ' ') ∨ c = '\u0085' ∨ c = '\u00a0' ∨ c = '\u1680' ∨
    ('\u2000' ≤ c ∧ c ≤ '\u200a') ∨ c = '\u2028' ∨ c = '\u2029' ∨ c = '\u202f' ∨ c = '\u205f' ∨
    c = '\u3000'

def blank (text : String) : Bool := text.toList.all isPythonSpace

/-- The checks of `resolve` before it reads the table. -/
def checkDecision (review : Decision φ) : Except ReviewError Unit :=
  if review.decision ≠ "RESUME" ∧ review.decision ≠ "HALT" then .error (.badDecision review.decision)
  else if review.decision = "RESUME" ∧ (blank review.reviewer ∨ blank review.note) then
    .error .unaccountable
  else .ok ()

end Append

/-! The projections. -/

def rowsOf (log : ReviewLog φ) (kind : String) : List (ReviewRow φ) :=
  log.rows.filter (fun row => row.kind = kind)

/-- `json.loads(r["payload"])`, with its fields. -/
def loadFields (row : ReviewRow φ) : Except ReviewError (List (String × Doc φ)) :=
  match row.payload.normal with
  | .obj fields => .ok fields
  | _ => .error .notObject

def field (fields : List (String × Doc φ)) (key : String) : Except ReviewError (Doc φ) :=
  (fields.lookup key).elim (.error (.missing key)) .ok

def toEscalation (row : ReviewRow φ) : Except ReviewError (Escalation φ) := do
  let fields ← loadFields row
  let harmClass ← field fields "harm_class"
  let measured ← field fields "measured"
  let bound ← field fields "bound"
  pure ⟨row.recordId, harmClass, measured, bound, (fields.lookup "reason").getD (.str ""), row.atNs⟩

/-- The loop of `pending` over the escalations. -/
def pendingOf (reviewed : List String) : List (ReviewRow φ) →
    Except ReviewError (List (Escalation φ))
  | [] => .ok []
  | row :: rest =>
      if row.recordId ∈ reviewed then pendingOf reviewed rest
      else do
        let first ← toEscalation row
        let others ← pendingOf reviewed rest
        pure (first :: others)

def pending (log : ReviewLog φ) : Except ReviewError (List (Escalation φ)) :=
  pendingOf ((rowsOf log "REVIEW").map ReviewRow.recordId) (rowsOf log "ESCALATION")

def isResume (document : Doc φ) : Bool :=
  match document with
  | .str text => text = "RESUME"
  | _ => false

/-- The sum of `resume_count`. -/
def countResumes : List (ReviewRow φ) → Except ReviewError Nat
  | [] => .ok 0
  | row :: rest => do
      let fields ← loadFields row
      let decision ← field fields "decision"
      let others ← countResumes rest
      pure ((if isResume decision then 1 else 0) + others)

def resumeCount (log : ReviewLog φ) : Except ReviewError Nat := countResumes (rowsOf log "REVIEW")

section Projections

variable (crypto : Crypto) (repr : φ → List Char)

def resolve (log : ReviewLog φ) (review : Decision φ) (now : Int) :
    Except ReviewError (ReviewLog φ) := do
  checkDecision review
  let open' ← pending log
  if review.recordId ∈ open'.map Escalation.recordId then
    append crypto repr log review.recordId "REVIEW" (reviewPayload review) now
  else .error (.notPending review.recordId)

/-- The loop of `verify_chain` after a row with the hash `prev`. -/
def verifyFrom (prev : String) : List (ReviewRow φ) → Bool × String
  | [] => (true, "intact")
  | row :: rest =>
      if rowHash crypto repr row.seq row.kind row.payload.normal row.atNs prev ≠ row.hash then
        (false, "record " ++ toString row.seq ++ " does not match its hash")
      else if row.prevHash ≠ prev then
        (false, "record " ++ toString row.seq ++ " breaks the chain")
      else verifyFrom row.hash rest

def verifyChain (log : ReviewLog φ) : Bool × String := verifyFrom crypto repr genesis log.rows

/-- The stored hash is that of the row as it reads back. -/
def RowSound (row : ReviewRow φ) : Prop :=
  rowHash crypto repr row.seq row.kind row.payload.normal row.atNs row.prevHash = row.hash

/-- The chain as `verify_chain` accepts it. -/
def Intact (log : ReviewLog φ) : Prop :=
  HashChain.Linked ReviewRow.prevHash ReviewRow.hash genesis log.rows ∧
    ∀ row ∈ log.rows, RowSound crypto repr row

variable {crypto repr}

theorem verifyFrom_intact_iff (prev : String) (rows : List (ReviewRow φ)) :
    verifyFrom crypto repr prev rows = (true, "intact") ↔
      HashChain.Linked ReviewRow.prevHash ReviewRow.hash prev rows ∧
        ∀ row ∈ rows, RowSound crypto repr row := by
  induction rows generalizing prev with
  | nil => simp [verifyFrom, HashChain.Linked]
  | cons row rest ih =>
      rw [verifyFrom, HashChain.Linked, List.forall_mem_cons]
      by_cases linked : row.prevHash = prev
      · subst linked
        by_cases sound : RowSound crypto repr row
        · have matched := sound
          rw [RowSound] at matched
          simp only [matched, ne_eq, not_true_eq_false, if_false, ih, true_and, sound]
        · have mismatched := sound
          rw [RowSound] at mismatched
          simp [mismatched, sound]
      · by_cases matched : rowHash crypto repr row.seq row.kind row.payload.normal row.atNs prev =
            row.hash
        · simp [matched, linked]
        · simp [matched, linked]

theorem verifyChain_intact_iff (log : ReviewLog φ) :
    verifyChain crypto repr log = (true, "intact") ↔ Intact crypto repr log :=
  verifyFrom_intact_iff genesis log.rows

end Projections

/-! Where a row goes. -/

theorem insert_taken (log : ReviewLog φ) (row : ReviewRow φ)
    (taken : ∃ old ∈ log.rows, old.seq = row.seq) : log.insert row = .error .integrityError := by
  rw [ReviewLog.insert, if_pos taken]

theorem insert_last (log : ReviewLog φ) (row : ReviewRow φ)
    (last : ∀ old ∈ log.rows, old.seq < row.seq) :
    ∃ next, log.insert row = .ok next ∧ next.rows = log.rows ++ [row] := by
  have absent : ¬∃ old ∈ log.rows, old.seq = row.seq := by
    intro ⟨old, member, same⟩
    have below := last old member
    omega
  have kept : log.rows.filter (fun old => old.seq < row.seq) = log.rows := by
    rw [List.filter_eq_self]
    intro old member
    simpa using last old member
  have none_above : log.rows.filter (fun old => row.seq < old.seq) = [] := by
    rw [List.filter_eq_nil_iff]
    intro old member
    have below := last old member
    simp only [decide_eq_true_eq]
    omega
  rw [ReviewLog.insert, if_neg absent]
  exact ⟨_, rfl, by simp only [kept, none_above]⟩

theorem below_nextSeq (log : ReviewLog φ) : ∀ old ∈ log.rows, old.seq < log.nextSeq := by
  intro old member
  rcases log.rows.eq_nil_or_concat with empty | ⟨before, last, rows⟩
  · rw [empty] at member
    cases member
  · have top : log.nextSeq = last.seq + 1 := by simp [ReviewLog.nextSeq, rows]
    have ordered := log.ordered
    rw [rows, List.concat_eq_append] at member ordered
    rcases List.mem_append.mp member with earlier | final
    · have below := (List.pairwise_append.mp ordered).2.2 old earlier last (List.mem_singleton_self last)
      omega
    · rw [List.mem_singleton.mp final]
      omega

/-- With the table to itself a call appends its row, unless it has no payload. -/
theorem append_cases (crypto : Crypto) (repr : φ → List Char) (log : ReviewLog φ)
    (recordId kind : String) (payload : Option (Doc φ)) (now : Int) :
    (payload = none ∧ ∃ error, append crypto repr log recordId kind payload now = .error error) ∨
      ∃ document next, payload = some document ∧
        append crypto repr log recordId kind payload now = .ok next ∧
        next.rows = log.rows ++
          [newRow crypto repr recordId kind document log.nextSeq log.lastHash now] := by
  cases payload with
  | none => exact Or.inl ⟨rfl, _, rfl⟩
  | some document =>
      rcases insert_last log
        (newRow crypto repr recordId kind document log.nextSeq log.lastHash now) (below_nextSeq log) with
        ⟨next, inserted, rows⟩
      exact Or.inr ⟨document, next, rfl, inserted, rows⟩

theorem rowsOf_append {log next : ReviewLog φ} {row : ReviewRow φ}
    (rows : next.rows = log.rows ++ [row]) (kind : String) :
    rowsOf next kind = rowsOf log kind ++ if row.kind = kind then [row] else [] := by
  rw [rowsOf, rows, List.filter_append, rowsOf]
  by_cases same : row.kind = kind
  · simp [same]
  · simp [same]

end Review

/-- Under the identity hash no document hashes to the start of the chain. -/
theorem Sample.dumps_ne_genesis {φ : Type} (repr : φ → List Char) (fields : List (String × Doc φ)) :
    Sample.crypto.hexdigest (utf8 (Doc.dumps repr (.obj fields))) ≠ Review.genesis := by
  intro same
  rcases Doc.utf8_dumps_obj repr fields with ⟨rest, opens⟩
  have zeros : Review.genesis = Hex.encode (List.replicate 32 0) := by decide
  rw [zeros] at same
  have bytes := opens.symm.trans (Hex.encode_injective same)
  cases bytes

end Gyza

import Gyza.Crypto
import Gyza.Lib.PyNumber

/-! Responses to pending reconciliations (`_handle_reconcile_response` of
`gyza/economy/settlement.py`), over decoded JSON as it arrives. -/

namespace Gyza.RawReconcile

open CanonJson (Doc)
open Hex (Bytes)

abbrev Fields (φ : Type) := List (String × Doc φ)

/-- What Python does with a payload and with the values in it. -/
structure Python (φ : Type) where
  /-- `json.loads(payload.decode("utf-8"))`; `none` is an exception. -/
  loads : Bytes → Option (Doc φ)
  str : Doc φ → String
  str_text : ∀ text, str (.str text) = text
  isZero : φ → Bool
  /-- `int(value)` of a float and of a text; `none` is an exception. -/
  truncate : φ → Option Int
  parseInt : String → Option Int

section Values

variable {φ : Type} (py : Python φ)

/-- `d.get(key)`. -/
def field (fields : Fields φ) (key : String) : Doc φ := (fields.lookup key).getD .null

def truthy : Doc φ → Bool
  | .null => false
  | .bool value => value
  | .int value => value ≠ 0
  | .float value => !py.isZero value
  | .str text => text ≠ ""
  | .arr items => !items.isEmpty
  | .obj fields => !fields.isEmpty

/-- `str(value or "")`. -/
def textOr (value : Doc φ) : String := if truthy py value then py.str value else ""

/-- `int(value or 0)`. -/
def intOr (value : Doc φ) : Option Int :=
  if truthy py value = false then some 0
  else
    match value with
    | .bool _ => some 1
    | .int value => some value
    | .float value => py.truncate value
    | .str text => py.parseInt text
    | _ => none

theorem textOr_str (text : String) : textOr py (.str text) = text := by
  rw [textOr, py.str_text]
  split_ifs with given
  · rfl
  · exact (by simpa [truthy] using given : text = "").symm

end Values

structure Pending (φ : Type) where
  peerPubkey : String
  entries : List (Fields φ)
  cursorTimestampNs : Int
  cursorEntryId : String
  hasMore : Bool
  error : Option String
  signalled : Bool

/-- A record as it is registered. -/
def Pending.fresh {φ : Type} (peerPubkey : String) : Pending φ where
  peerPubkey := peerPubkey
  entries := []
  cursorTimestampNs := 0
  cursorEntryId := ""
  hasMore := false
  error := none
  signalled := false

/-- A message with the sender that the transport authenticated. -/
structure Incoming where
  senderPubkey : String
  payload : Bytes

inductive Raised where
  | attributeError
  | intError

abbrev Pendings (φ : Type) := String → Option (Pending φ)

section Handler

variable {φ : Type} (py : Python φ)

/-- `[e for e in raw_entries if isinstance(e, dict)]`. -/
def objects (items : List (Doc φ)) : List (Fields φ) :=
  items.filterMap fun item =>
    match item with
    | .obj fields => some fields
    | _ => none

/-- `d.get("entries") or []`. `none` is a value that is no list. -/
def rawEntries (d : Fields φ) : Option (List (Doc φ)) :=
  if truthy py (field d "entries") = false then some []
  else
    match field d "entries" with
    | .arr items => some items
    | _ => none

/-- What a response does to the record it answers. An exception leaves the entries assigned. -/
def fill (pending : Pending φ) (d : Fields φ) : Pending φ × Option Raised :=
  match rawEntries py d with
  | none => ({ pending with error := some "entries field is not a list", signalled := true }, none)
  | some items =>
      match intOr py (field d "cursor_timestamp_ns") with
      | none => ({ pending with entries := objects items }, some .intError)
      | some timestampNs =>
          ({ pending with
            entries := objects items
            cursorTimestampNs := timestampNs
            cursorEntryId := textOr py (field d "cursor_entry_id")
            hasMore := truthy py (field d "has_more")
            signalled := true }, none)

def handleReconcileResponse (pendings : Pendings φ) (incoming : Incoming) :
    Pendings φ × Option Raised :=
  match py.loads incoming.payload with
  | none => (pendings, none)
  | some (.obj d) =>
      if textOr py (field d "request_id") = "" then (pendings, none)
      else
        match pendings (textOr py (field d "request_id")) with
        | none => (pendings, none)
        | some pending =>
            if textOr py (field d "from_compositor") ≠ pending.peerPubkey then (pendings, none)
            else
              (Function.update pendings (textOr py (field d "request_id"))
                (some (fill py pending d).1), (fill py pending d).2)
  | some _ => (pendings, some .attributeError)

/-- The payload claims to answer a request, and to come from the peer asked. -/
structure Answers (incoming : Incoming) (requestId : String) (pending : Pending φ)
    (d : Fields φ) : Prop where
  loaded : py.loads incoming.payload = some (.obj d)
  answered : textOr py (field d "request_id") = requestId
  named : requestId ≠ ""
  fromPeer : textOr py (field d "from_compositor") = pending.peerPubkey

theorem handled_of_answers {pendings : Pendings φ} {incoming : Incoming} {requestId : String}
    {pending : Pending φ} {d : Fields φ} (registered : pendings requestId = some pending)
    (answers : Answers py incoming requestId pending d) :
    (handleReconcileResponse py pendings incoming).1 requestId = some (fill py pending d).1 := by
  obtain ⟨loaded, answered, named, fromPeer⟩ := answers
  simp only [handleReconcileResponse, loaded, answered, if_neg named, registered, fromPeer,
    ne_eq, not_true_eq_false, if_false, Function.update_self]

/-- A message that does not answer a request leaves its record alone. -/
theorem handled_of_not_answers {pendings : Pendings φ} {incoming : Incoming} {requestId : String}
    {pending : Pending φ} (registered : pendings requestId = some pending)
    (other : ∀ d, ¬Answers py incoming requestId pending d) :
    (handleReconcileResponse py pendings incoming).1 requestId = some pending := by
  rw [handleReconcileResponse]
  split
  · exact registered
  · rename_i d loaded
    split_ifs with unnamed
    · exact registered
    · split
      · exact registered
      · rename_i found stored
        split_ifs with stranger
        · exact registered
        · have elsewhere : requestId ≠ textOr py (field d "request_id") := by
            rintro rfl
            cases registered.symm.trans stored
            exact other d ⟨loaded, rfl, unnamed, not_not.mp stranger⟩
          simp only [Function.update_of_ne elsewhere]
          exact registered
  · exact registered

/-- The record already holds what the response says. -/
def Repeats (pending : Pending φ) (d : Fields φ) : Prop :=
  match rawEntries py d with
  | none => pending.error = some "entries field is not a list" ∧ pending.signalled = true
  | some items => pending.entries = objects items ∧
      ∀ timestampNs, intOr py (field d "cursor_timestamp_ns") = some timestampNs →
        pending.cursorTimestampNs = timestampNs ∧
          pending.cursorEntryId = textOr py (field d "cursor_entry_id") ∧
          pending.hasMore = truthy py (field d "has_more") ∧ pending.signalled = true

theorem fill_eq_iff (pending : Pending φ) (d : Fields φ) :
    (fill py pending d).1 = pending ↔ Repeats py pending d := by
  obtain ⟨peerPubkey, entries, timestamp, entryId, hasMore, error, signalled⟩ := pending
  rw [fill, Repeats]
  cases rawEntries py d with
  | none => simp [eq_comm]
  | some items =>
      cases intOr py (field d "cursor_timestamp_ns") with
      | none => simp [eq_comm]
      | some timestampNs => simp [eq_comm]

/-- Of all messages, only those of the peer asked change a pending record. -/
def OnlyPeerAnswers (pendings : Pendings φ) (incoming : Incoming) : Prop :=
  ∀ requestId pending, pendings requestId = some pending →
    incoming.senderPubkey ≠ pending.peerPubkey →
      (handleReconcileResponse py pendings incoming).1 requestId = some pending

theorem only_peer_answers_iff (pendings : Pendings φ) (incoming : Incoming) :
    OnlyPeerAnswers py pendings incoming ↔
      ∀ requestId pending d, pendings requestId = some pending →
        incoming.senderPubkey ≠ pending.peerPubkey → Answers py incoming requestId pending d →
          Repeats py pending d := by
  constructor
  · intro only requestId pending d registered foreign answers
    have changed := handled_of_answers py registered answers
    rw [only requestId pending registered foreign] at changed
    exact (fill_eq_iff py pending d).mp (Option.some_inj.mp changed).symm
  · intro repeated requestId pending registered foreign
    by_cases answered : ∃ d, Answers py incoming requestId pending d
    · obtain ⟨d, answers⟩ := answered
      rw [handled_of_answers py registered answers]
      have same := repeated requestId pending d registered foreign answers
      exact congrArg some ((fill_eq_iff py pending d).mpr same)
    · exact handled_of_not_answers py registered (not_exists.mp answered)

end Handler

namespace Sample

def asked : LocalCompositor Gyza.Sample.crypto := Gyza.Sample.compositor 1

def stranger : LocalCompositor Gyza.Sample.crypto := Gyza.Sample.compositor 3

def forgedText : String :=
  "\x7b\"request_id\":\"r1\",\"from_compositor\":\"" ++ asked.pubkeyHex ++
    "\",\"entries\":[\x7b\"entry_id\":\"e1\"\x7d]\x7d"

def forged : Fields Int :=
  [("request_id", .str "r1"), ("from_compositor", .str asked.pubkeyHex),
    ("entries", .arr [.obj [("entry_id", .str "e1")]])]

/-- A parser that knows one text. -/
def reads {φ : Type} (text : String) (value : Doc φ) (payload : Bytes) : Option (Doc φ) :=
  if payload = Hex.utf8 text then some value else none

theorem reads_self {φ : Type} (text : String) (value : Doc φ) :
    reads text value (Hex.utf8 text) = some value := if_pos rfl

def python : Python Int where
  loads := reads forgedText (.obj forged)
  str
    | .str text => text
    | _ => ""
  str_text _ := rfl
  isZero value := value = 0
  truncate value := some value
  parseInt _ := none

/-- One page is asked for. -/
def pendings : Pendings Int := fun requestId =>
  if requestId = "r1" then some (.fresh asked.pubkeyHex) else none

def injected : Incoming := ⟨stranger.pubkeyHex, Hex.utf8 forgedText⟩

end Sample

/-- A stranger writes the key of the peer asked into its payload. -/
theorem stranger_answers : ¬OnlyPeerAnswers Sample.python Sample.pendings Sample.injected := by
  intro only
  have foreign : Sample.stranger.pubkeyHex ≠ Sample.asked.pubkeyHex := by decide +kernel
  have kept := only "r1" (.fresh Sample.asked.pubkeyHex) (if_pos rfl) foreign
  have loaded : Sample.python.loads Sample.injected.payload = some (.obj Sample.forged) := by
    simp only [Sample.python, Sample.injected, Sample.reads_self]
  have answers : Answers Sample.python Sample.injected "r1" (.fresh Sample.asked.pubkeyHex)
      Sample.forged :=
    ⟨loaded, textOr_str Sample.python "r1", by decide,
      textOr_str Sample.python Sample.asked.pubkeyHex⟩
  rw [handled_of_answers Sample.python (if_pos rfl) answers] at kept
  cases kept

end Gyza.RawReconcile

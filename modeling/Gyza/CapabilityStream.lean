import Gyza.Challenge
import Gyza.MessageFrame
import Gyza.Lib.Run
import Gyza.Lib.StreamScan

/-! The stream of a capability challenge
(`netd/internal/capability_stream/capability_stream.go`).

The validator writes a challenge, the applicant a response, and the validator the outcome, a
frame each. Every frame is read through a buffered reader of its own: what the reader took off
the stream behind its frame goes with it. -/

namespace Gyza.CapabilityStream

open Uvarint (Bytes VarintError maxVarintLen64 putUvarint readUvarint)
open StreamScan (Stable)
open MessageFrame (defaultBufSize)
open Checks (demand present)

def maxFrameLen : Nat := 4 * 1024 * 1024

def defaultChallengeTTL : Int := 5 * 60 * 1000000000

structure VerifyResponseResult where
  success : Bool
  error : String
  coSignature : Option GoCoSignature

/-- The protobuf encoding of a kind of messages, which fails on malformed strings. -/
structure Wire (α : Type) where
  marshal : α → Option Bytes
  unmarshal : Bytes → Option α
  unmarshal_marshal : ∀ message bytes, marshal message = some bytes →
    unmarshal bytes = some message

structure Wires where
  challenge : Wire GoChallenge
  response : Wire GoChallengeResponse
  outcome : Wire VerifyResponseResult

/-! Frames. -/

inductive WriteError where
  | marshal
  | tooLarge (length : Nat)
  | lengthOverrun
  deriving DecidableEq

inductive FrameError where
  | readLength (cause : VarintError)
  | tooLarge (length : UInt64)
  | readBody (cause : VarintError)
  | unmarshal
  deriving DecidableEq

section Frames

variable {α : Type} (wire : Wire α)

def writeFrame (message : α) : Except WriteError Bytes :=
  match wire.marshal message with
  | none => .error .marshal
  | some body =>
      if maxFrameLen < body.length then .error (.tooLarge body.length)
      else
        match putUvarint maxVarintLen64 (UInt64.ofNat body.length) with
        | none => .error .lengthOverrun
        | some length => .ok (length ++ body)

/-- How far `readFrame` comes with what has arrived. -/
def scanFrame (arrived : Bytes) : StreamScan.Scan UInt8 FrameError Bytes :=
  match readUvarint arrived with
  | .error .overflow => .failed (.readLength .overflow)
  | .error _ => .more
  | .ok (length, rest) =>
      if maxFrameLen < length.toNat then .failed (.tooLarge length)
      else if length.toNat ≤ rest.length then
        .whole (rest.take length.toNat) (rest.drop length.toNat)
      else .more

/-- What `readFrame` returns when the stream ends behind what has arrived. -/
def endOfStream (arrived : Bytes) : FrameError :=
  match readUvarint arrived with
  | .error cause => .readLength cause
  | .ok (_, rest) => .readBody (if rest = [] then .eof else .unexpectedEOF)

inductive FrameRead (α : Type) where
  | pending (arrived : Bytes)
  | failed (error : FrameError)
  | got (message : α) (left : Bytes)

def decodeFrame (arrived : Bytes) : FrameRead α :=
  match scanFrame arrived with
  | .more => .pending arrived
  | .failed error => .failed error
  | .whole body left =>
      match wire.unmarshal body with
      | none => .failed .unmarshal
      | some message => .got message left

/-- How many bytes the reader asks for: its buffer full, or the rest of a body that does not
go through the buffer. -/
def readRoom (arrived : Bytes) : Nat :=
  match readUvarint arrived with
  | .error _ => defaultBufSize
  | .ok (length, rest) => max defaultBufSize (length.toNat - rest.length)

/-- One way of the stream: the bytes still on it, and whether no others will follow. -/
structure Direction where
  inFlight : Bytes := []
  ended : Bool := false

/-- What is written to a stream that has ended does not arrive. -/
def Direction.send (direction : Direction) (bytes : Bytes) : Direction :=
  if direction.ended then direction
  else { direction with inFlight := direction.inFlight ++ bytes }

def Direction.finish (direction : Direction) : Direction := { direction with ended := true }

/-- The stream breaks, and of what is on it only so much still arrives. -/
def Direction.cut (direction : Direction) (keep : Nat) : Direction :=
  ⟨direction.inFlight.take keep, true⟩

/-- One read from the stream on behalf of `readFrame`. It blocks on a stream that is empty, and
else gets any number of bytes from one to what was asked for. -/
def readStep (direction : Direction) (arrived : Bytes) (size : Nat) :
    Direction × FrameRead α :=
  if direction.inFlight = [] then
    (direction, if direction.ended then .failed (endOfStream arrived) else .pending arrived)
  else
    ({ direction with inFlight := direction.inFlight.drop (min (size + 1) (readRoom arrived)) },
      decodeFrame wire (arrived ++ direction.inFlight.take (min (size + 1) (readRoom arrived))))

end Frames

/-! The two parties. -/

/-- What `NewManager` accepts. -/
structure Manager where
  capMgr : ChallengeManager
  taskIds : List String
  verifyOut : Option (String → Bytes → Except String Unit)
  ttl : Int
  tasked : taskIds ≠ []
  lasting : 0 < ttl

def newManager (capMgr : Option ChallengeManager) (taskIds : List String)
    (verifyOut : Option (String → Bytes → Except String Unit)) (ttl : Int) :
    Except String Manager :=
  match capMgr with
  | none => .error "Config.CapabilityManager is required"
  | some capMgr =>
      if tasked : taskIds = [] then .error "Config.TaskIDs must be non-empty"
      else if lasting : ttl ≤ 0 then
        .ok ⟨capMgr, taskIds, verifyOut, defaultChallengeTTL, tasked, by decide⟩
      else .ok ⟨capMgr, taskIds, verifyOut, ttl, tasked, not_le.mp lasting⟩

/-- The peer at the other end, with the raw key its peer id holds, if it holds one. -/
structure RemotePeer where
  isHost : Bool
  pubkey : Option Bytes

inductive IssueError where
  | applicantRequired
  | applicantNotHex
  | taskRequired
  | marshalBody
  deriving DecidableEq

def Nonce : Type := { nonce : Bytes // nonce.length = nonceSize }

def issueChallenge (marshal : GoMarshal) (manager : ChallengeManager)
    (applicantPubkeyHex : String) (taskIds : List String) (ttl : Int) (nonce : Nonce)
    (nowNs : Int) : Except IssueError GoChallenge := do
  demand (applicantPubkeyHex ≠ "") .applicantRequired
  let _ ← present (Hex.decode applicantPubkeyHex) .applicantNotHex
  demand (taskIds ≠ []) .taskRequired
  let ttl := if ttl ≤ 0 then defaultChallengeTTL else ttl
  let body : GoChallengeBody :=
    { challengerPubkey := manager.pubkeyHex
      applicantPubkey := applicantPubkeyHex
      taskIds := taskIds
      nonce := nonce.1
      issuedAtNs := nowNs
      expiresAtNs := goInt64 (nowNs + ttl) }
  let bodyBytes ← present (marshal.challenge body) .marshalBody
  pure { body := some body, challengerSignature := manager.signer bodyBytes }

inductive RequestError where
  | readChallenge (cause : FrameError)
  | invalidChallenge (cause : ChallengeError)
  | eval (cause : String)
  | nilResponse
  | writeResponse (cause : WriteError)
  | readOutcome (cause : FrameError)
  | rejected (error : String)
  | nilCosignature
  | streamFailed

/-- What one session runs with. `describe` is the text of an error. -/
structure Setting where
  crypto : Crypto
  marshal : GoMarshal
  wires : Wires
  manager : Manager
  remote : RemotePeer
  runEval : GoChallenge → Except String (Option GoChallengeResponse)
  describe : ResponseError → String

structure Verdict where
  response : GoChallengeResponse
  found : Except ResponseError GoCoSignature

/-- `handleIncoming`, at the points where it waits for the stream. -/
inductive ValidatorState where
  | opened
  | awaiting (challenge : GoChallenge) (arrived : Bytes)
  | finished (challenge : Option GoChallenge) (verdict : Option Verdict)

/-- `RequestAttestation`, once the stream is open. -/
inductive ApplicantState where
  | readingChallenge (arrived : Bytes)
  | evaluating (challenge : GoChallenge)
  | readingOutcome (challenge : GoChallenge) (response : GoChallengeResponse) (arrived : Bytes)
  | returned (response : Option GoChallengeResponse) (result : Except RequestError GoCoSignature)

def ValidatorState.challenge : ValidatorState → Option GoChallenge
  | .opened => none
  | .awaiting challenge _ => some challenge
  | .finished challenge _ => challenge

def ValidatorState.verdict : ValidatorState → Option Verdict
  | .finished _ verdict => verdict
  | _ => none

/-- The response that was written. -/
def ApplicantState.response : ApplicantState → Option GoChallengeResponse
  | .readingOutcome _ response _ => some response
  | .returned response _ => response
  | _ => none

/-- Both ends of a stream, and what their readers have thrown away. -/
structure Session where
  validator : ValidatorState := .opened
  applicant : ApplicantState := .readingChallenge []
  toApplicant : Direction := {}
  toValidator : Direction := {}
  discarded : Bytes := []

inductive StreamEvent where
  | issue (nonce : Nonce) (nowNs : Int)
  | applicantRead (size : Nat) (nowNs : Int)
  | evaluate
  | validatorRead (size : Nat) (nowNs : Int)
  -- a deadline, a reset or a cancelled context
  | applicantFails
  | validatorFails
  | cutToApplicant (keep : Nat)
  | cutToValidator (keep : Nat)

namespace Session

/-- The deferred `Close` of either party ends what it sends. -/
def returns (session : Session) (result : Except RequestError GoCoSignature) : Session :=
  { session with
    applicant := .returned session.applicant.response result
    toValidator := session.toValidator.finish }

def finishes (session : Session) (challenge : Option GoChallenge) (verdict : Option Verdict) :
    Session :=
  { session with
    validator := .finished challenge verdict
    toApplicant := session.toApplicant.finish }

end Session

namespace Setting

variable (setting : Setting)

/-- The first half of `handleIncoming`: what it asks of which applicant. -/
def challengeFor (nonce : Nonce) (nowNs : Int) : Option GoChallenge :=
  if setting.remote.isHost then none
  else
    setting.remote.pubkey.bind fun raw =>
      (issueChallenge setting.marshal setting.manager.capMgr (Hex.encode raw)
        setting.manager.taskIds setting.manager.ttl nonce nowNs).toOption

def judge (challenge : GoChallenge) (response : GoChallengeResponse) (nowNs : Int) :
    Except ResponseError GoCoSignature :=
  verifyResponse setting.crypto setting.marshal setting.manager.verifyOut setting.manager.capMgr
    (some challenge) (some response) nowNs

def outcomeOf : Except ResponseError GoCoSignature → VerifyResponseResult
  | .error error => ⟨false, setting.describe error, none⟩
  | .ok cosignature => ⟨true, "", some cosignature⟩

def resultOf (outcome : VerifyResponseResult) : Except RequestError GoCoSignature :=
  if outcome.success = false then .error (.rejected outcome.error)
  else
    match outcome.coSignature with
    | none => .error .nilCosignature
    | some cosignature => .ok cosignature

def challengeStep (session : Session) (nonce : Nonce) (nowNs : Int) : Session :=
  match setting.challengeFor nonce nowNs with
  | none => session.finishes none none
  | some challenge =>
      match writeFrame setting.wires.challenge challenge with
      | .error _ => session.finishes none none
      | .ok frame =>
          { session with
            validator := .awaiting challenge []
            toApplicant := session.toApplicant.send frame }

def issueStep (session : Session) (nonce : Nonce) (nowNs : Int) : Session :=
  match session.validator with
  | .opened => setting.challengeStep session nonce nowNs
  | _ => session

def readChallengeStep (session : Session) (arrived : Bytes) (size : Nat) (nowNs : Int) : Session :=
  match readStep setting.wires.challenge session.toApplicant arrived size with
  | (direction, .pending arrived) =>
      { session with applicant := .readingChallenge arrived, toApplicant := direction }
  | (direction, .failed error) =>
      { session with toApplicant := direction }.returns (.error (.readChallenge error))
  | (direction, .got challenge left) =>
      let read := { session with
        toApplicant := direction
        discarded := session.discarded ++ left }
      match verifyChallenge setting.crypto setting.marshal (some challenge) nowNs with
      | .error error => read.returns (.error (.invalidChallenge error))
      | .ok () => { read with applicant := .evaluating challenge }

def readOutcomeStep (session : Session) (challenge : GoChallenge) (response : GoChallengeResponse)
    (arrived : Bytes) (size : Nat) : Session :=
  match readStep setting.wires.outcome session.toApplicant arrived size with
  | (direction, .pending arrived) =>
      { session with
        applicant := .readingOutcome challenge response arrived
        toApplicant := direction }
  | (direction, .failed error) =>
      { session with toApplicant := direction }.returns (.error (.readOutcome error))
  | (direction, .got outcome left) =>
      { session with toApplicant := direction, discarded := session.discarded ++ left
          }.returns (resultOf outcome)

def applicantReadStep (session : Session) (size : Nat) (nowNs : Int) : Session :=
  match session.applicant with
  | .readingChallenge arrived => setting.readChallengeStep session arrived size nowNs
  | .readingOutcome challenge response arrived =>
      setting.readOutcomeStep session challenge response arrived size
  | _ => session

/-- `runEval` and the writing of its response. -/
def respondStep (session : Session) (challenge : GoChallenge) : Session :=
  match setting.runEval challenge with
  | .error cause => session.returns (.error (.eval cause))
  | .ok none => session.returns (.error .nilResponse)
  | .ok (some response) =>
      match writeFrame setting.wires.response response with
      | .error cause => session.returns (.error (.writeResponse cause))
      | .ok frame =>
          { session with
            applicant := .readingOutcome challenge response []
            toValidator := session.toValidator.send frame }

def evaluateStep (session : Session) : Session :=
  match session.applicant with
  | .evaluating challenge => setting.respondStep session challenge
  | _ => session

def readResponseStep (session : Session) (challenge : GoChallenge) (arrived : Bytes) (size : Nat)
    (nowNs : Int) : Session :=
  match readStep setting.wires.response session.toValidator arrived size with
  | (direction, .pending arrived) =>
      { session with validator := .awaiting challenge arrived, toValidator := direction }
  | (direction, .failed _) =>
      { session with toValidator := direction }.finishes (some challenge) none
  | (direction, .got response left) =>
      let found := setting.judge challenge response nowNs
      let read := { session with
        toValidator := direction
        discarded := session.discarded ++ left }
      match writeFrame setting.wires.outcome (setting.outcomeOf found) with
      | .error _ => read.finishes (some challenge) none
      | .ok frame =>
          { read with toApplicant := session.toApplicant.send frame
              }.finishes (some challenge) (some ⟨response, found⟩)

def validatorReadStep (session : Session) (size : Nat) (nowNs : Int) : Session :=
  match session.validator with
  | .awaiting challenge arrived => setting.readResponseStep session challenge arrived size nowNs
  | _ => session

def step (session : Session) : StreamEvent → Session
  | .issue nonce nowNs => setting.issueStep session nonce nowNs
  | .applicantRead size nowNs => setting.applicantReadStep session size nowNs
  | .evaluate => setting.evaluateStep session
  | .validatorRead size nowNs => setting.validatorReadStep session size nowNs
  | .applicantFails =>
      match session.applicant with
      | .returned _ _ => session
      | _ => session.returns (.error .streamFailed)
  | .validatorFails =>
      match session.validator with
      | .finished _ _ => session
      | _ => session.finishes session.validator.challenge none
  | .cutToApplicant keep => { session with toApplicant := session.toApplicant.cut keep }
  | .cutToValidator keep => { session with toValidator := session.toValidator.cut keep }

end Setting

/-! One frame, read in pieces. -/

section Reading

variable {α : Type} {wire : Wire α}

theorem stable_scanFrame : Stable scanFrame := by
  intro front rest
  unfold scanFrame
  cases read : readUvarint front with
  | error cause =>
      cases cause with
      | eof => exact Or.inl rfl
      | unexpectedEOF => exact Or.inl rfl
      | overflow =>
          right
          rw [Uvarint.readUvarint_append_overflow rest read]
          rfl
  | ok found =>
      obtain ⟨length, body⟩ := found
      rw [Uvarint.readUvarint_append rest read]
      by_cases large : maxFrameLen < length.toNat
      · right
        simp only [if_pos large, StreamScan.Scan.followed]
      · by_cases whole : length.toNat ≤ body.length
        · right
          have longer : length.toNat ≤ (body ++ rest).length := by
            rw [List.length_append]
            omega
          simp only [if_neg large, if_pos whole, if_pos longer, StreamScan.Scan.followed,
            List.take_append_of_le_length whole, List.drop_append_of_le_length whole]
        · left
          simp only [if_neg large, if_neg whole]

def frameBound : Nat := maxVarintLen64 + maxFrameLen

theorem writeFrame_ok {message : α} {frame : Bytes}
    (written : writeFrame wire message = .ok frame) :
    frame.length ≤ frameBound ∧
      ∃ body, wire.marshal message = some body ∧ scanFrame frame = .whole body [] := by
  unfold writeFrame at written
  split at written
  · cases written
  · rename_i body marshalled
    split_ifs at written with large
    split at written
    · cases written
    · rename_i length put
      cases written
      have small : body.length ≤ maxFrameLen := not_lt.mp large
      have counted : (UInt64.ofNat body.length).toNat = body.length :=
        MessageFrame.toNat_length small
      constructor
      · rw [List.length_append, frameBound]
        exact Nat.add_le_add (Uvarint.length_putUvarint put) small
      · refine ⟨body, marshalled, ?_⟩
        simp only [scanFrame, Uvarint.readUvarint_put body put, counted, if_neg large,
          if_pos le_rfl, List.take_length, List.drop_length]

/-- The bytes that are written for a message, if there is one. -/
def frameOf (wire : Wire α) : Option α → Bytes
  | none => []
  | some message => (writeFrame wire message).toOption.getD []

/-- What has arrived and what is on the stream are the frame as far as it was not cut off, and
what has arrived is not all of it. -/
structure Unread (frame arrived : Bytes) (direction : Direction) : Prop where
  front : arrived ++ direction.inFlight <+: frame
  whole : direction.ended = false → arrived ++ direction.inFlight = frame
  more : scanFrame arrived = .more

theorem Unread.start (direction : Direction) (empty : direction.inFlight = []) :
    Unread [] [] direction where
  front := by rw [empty]; exact List.nil_prefix
  whole := fun _ => by rw [empty]; rfl
  more := rfl

/-- Nothing was written, so nothing has arrived. -/
theorem Unread.nothing {arrived : Bytes} {direction : Direction}
    (unread : Unread [] arrived direction) : arrived = [] ∧ direction.inFlight = [] :=
  List.append_eq_nil_iff.mp (List.prefix_nil.mp unread.front)

theorem Unread.finish {frame arrived : Bytes} {direction : Direction}
    (unread : Unread frame arrived direction) : Unread frame arrived direction.finish where
  front := unread.front
  whole := fun going => nomatch going
  more := unread.more

theorem Unread.cut {frame arrived : Bytes} {direction : Direction}
    (unread : Unread frame arrived direction) (keep : Nat) :
    Unread frame arrived (direction.cut keep) where
  front := ((List.prefix_append_right_inj arrived).mpr (List.take_prefix keep _)).trans unread.front
  whole := fun going => nomatch going
  more := unread.more

theorem Direction.ended_send (direction : Direction) (bytes : Bytes) :
    (direction.send bytes).ended = direction.ended := by
  unfold Direction.send
  split_ifs
  · rfl
  · rfl

/-- A frame is written where nothing was. -/
theorem Unread.send {message : α} {frame arrived : Bytes} {direction : Direction}
    (unread : Unread [] arrived direction) (written : writeFrame wire message = .ok frame) :
    Unread (frameOf wire (some message)) arrived (direction.send frame) := by
  obtain ⟨rfl, empty⟩ := unread.nothing
  have bytes : frameOf wire (some message) = frame := by
    rw [frameOf, written]
    rfl
  rw [bytes]
  unfold Direction.send
  split_ifs with ended
  · refine ⟨?_, ?_, unread.more⟩
    · rw [empty]
      exact List.nil_prefix
    · intro going
      rw [ended] at going
      cases going
  · refine ⟨?_, ?_, unread.more⟩
    · simp only [empty, List.nil_append, List.prefix_rfl]
    · intro _
      simp only [empty, List.nil_append]

/-- How a read goes on: it blocks, finds the stream ended, gets a part of the frame, or gets
the end of it and nothing behind. -/
inductive ReadsOn (wire : Wire α) (message : Option α) (direction : Direction) (arrived : Bytes) :
    Direction × FrameRead α → Prop where
  | blocked (empty : direction.inFlight = []) (going : direction.ended = false) :
      ReadsOn wire message direction arrived (direction, .pending arrived)
  | closed (empty : direction.inFlight = []) (ended : direction.ended = true) :
      ReadsOn wire message direction arrived (direction, .failed (endOfStream arrived))
  | further (next : Direction) (grown : Bytes) (unread : Unread (frameOf wire message) grown next)
      (same : next.ended = direction.ended)
      (less : next.inFlight.length < direction.inFlight.length) :
      ReadsOn wire message direction arrived (next, .pending grown)
  | found (next : Direction) (item : α) (sent : message = some item) (empty : next.inFlight = [])
      (same : next.ended = direction.ended) :
      ReadsOn wire message direction arrived (next, .got item [])

theorem readStep_readsOn {message : Option α} {direction : Direction} {arrived : Bytes}
    (unread : Unread (frameOf wire message) arrived direction) (size : Nat) :
    ReadsOn wire message direction arrived (readStep wire direction arrived size) := by
  unfold readStep
  by_cases empty : direction.inFlight = []
  · rw [if_pos empty]
    cases ended : direction.ended with
    | true => exact .closed empty ended
    | false => exact .blocked empty ended
  · rw [if_neg empty]
    generalize counted : min (size + 1) (readRoom arrived) = count
    have some_read : 0 < count := by
      have room : defaultBufSize ≤ readRoom arrived := by
        unfold readRoom
        split
        · exact le_rfl
        · exact le_max_left _ _
      have size : 0 < defaultBufSize := by decide
      omega
    have joined : arrived ++ direction.inFlight.take count ++ direction.inFlight.drop count =
        arrived ++ direction.inFlight := by
      rw [List.append_assoc, List.take_append_drop]
    have shorter : (direction.inFlight.drop count).length < direction.inFlight.length := by
      have filled : 0 < direction.inFlight.length := List.length_pos_of_ne_nil empty
      rw [List.length_drop]
      omega
    have front : arrived ++ direction.inFlight.take count <+: frameOf wire message :=
      (List.prefix_append _ _).trans (joined ▸ unread.front)
    cases message with
    | none => exact absurd unread.nothing.2 empty
    | some item =>
        cases written : writeFrame wire item with
        | error error =>
            rw [frameOf, written] at unread
            exact absurd unread.nothing.2 empty
        | ok frame =>
            have bytes : frameOf wire (some item) = frame := by
              rw [frameOf, written]
              rfl
            obtain ⟨-, body, marshalled, scanned⟩ := writeFrame_ok written
            rcases stable_scanFrame.of_front scanned (bytes ▸ front) with more | all
            · have pending : decodeFrame wire (arrived ++ direction.inFlight.take count) =
                  .pending (arrived ++ direction.inFlight.take count) := by
                simp only [decodeFrame, more]
              rw [pending]
              refine .further _ _ ⟨?_, ?_, more⟩ rfl shorter
              · simp only [joined]
                exact unread.front
              · intro going
                simp only [joined]
                exact unread.whole going
            · have got : decodeFrame wire (arrived ++ direction.inFlight.take count) =
                  .got item [] := by
                simp only [decodeFrame, all, scanned, wire.unmarshal_marshal item body marshalled]
              rw [got]
              refine .found _ item rfl ?_ rfl
              have rest : frame ++ direction.inFlight.drop count <+: frame ++ [] := by
                have begins := unread.front
                rw [← joined, all, bytes] at begins
                rw [List.append_nil]
                exact begins
              exact List.prefix_nil.mp ((List.prefix_append_right_inj frame).mp rest)

end Reading

end Gyza.CapabilityStream

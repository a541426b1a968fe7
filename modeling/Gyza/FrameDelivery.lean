import Gyza.Audit
import Gyza.Transport

/-! From the bytes of a stream to the messages of the transport (`quic_event_received` and
`_drain_frames` of `gyza/network/transport.py`).

Closing sets a flag that neither the loop over the buffer nor a later event looks at. -/

namespace Gyza.FrameDelivery

open Audit (Parsed)
open Hex (Bytes)
open PyValue (Fields)

def maxMessageSize : Nat := 4 * 1024 * 1024

/-- `StreamDataReceived`. -/
structure StreamData where
  data : Bytes
  endStream : Bool := false

/-- One end of a connection with the messages it took up, each with the flag of closing as it
was then. -/
structure Endpoint where
  protocol : GyzaProtocol
  dispatched : List (Bool × Fields) := []

structure Connection where
  endpoint : Endpoint
  buffer : Bytes := []

def Endpoint.close (endpoint : Endpoint) : Endpoint :=
  { endpoint with protocol := endpoint.protocol.closeWith.1 }

inductive Decoded where
  | message (msg : Fields)
  /-- The connection is closed. -/
  | refused
  | raised

/-- `struct.unpack(">I", self._buffer[:4])`. -/
def unpackSize : Bytes → Option Nat
  | a :: b :: c :: d :: _ =>
      some (((a.toNat * 256 + b.toNat) * 256 + c.toNat) * 256 + d.toNat)
  | _ => none

section Drain

/-! `loads` is `json.loads(payload.decode("utf-8"))`. -/

variable {crypto : Crypto} (identity : LocalCompositor crypto) (loads : Bytes → Parsed)

def decode (payload : Bytes) : Decoded :=
  match loads payload with
  | .document (.dict msg) => if (msg.lookup "type").isSome then .message msg else .refused
  | .document _ => .refused
  | .malformed => .refused
  | .raises => .raised

/-- `_dispatch`. A message that it rejects does nothing but close the connection. -/
def Endpoint.dispatch (endpoint : Endpoint) (msg : Fields) : Endpoint where
  protocol := (endpoint.protocol.dispatch identity msg).1
  dispatched :=
    if (endpoint.protocol.dispatch identity msg).2.isEmpty then endpoint.dispatched
    else endpoint.dispatched ++ [(endpoint.protocol.closed, msg)]

/-- The loop, and whether it ended with an exception. -/
def drainFrames : Nat → Connection → Connection × Bool
  | 0, connection => (connection, false)
  | fuel + 1, connection =>
      match unpackSize connection.buffer with
      | none => (connection, false)
      | some size =>
          if maxMessageSize < size then
            ({ connection with endpoint := connection.endpoint.close }, false)
          else if connection.buffer.length < 4 + size then (connection, false)
          else
            let payload := (connection.buffer.drop 4).take size
            let connection := { connection with buffer := connection.buffer.drop (4 + size) }
            match decode loads payload with
            | .message msg =>
                drainFrames fuel
                  { connection with endpoint := connection.endpoint.dispatch identity msg }
            | .refused => ({ connection with endpoint := connection.endpoint.close }, false)
            | .raised => (connection, true)

/-- An exception leaves the end of the stream unnoticed. -/
def quicEventReceived (connection : Connection) (event : StreamData) : Connection :=
  let connection := { connection with buffer := connection.buffer ++ event.data }
  let drained := drainFrames identity loads connection.buffer.length connection
  if drained.2 = false ∧ event.endStream = true then
    { drained.1 with endpoint := drained.1.endpoint.close }
  else drained.1

def receiveAll (protocol : GyzaProtocol) (events : List StreamData) : Connection :=
  events.foldl (quicEventReceived identity loads) { endpoint := { protocol } }

/-! The frames of a stream, one after the other. -/

/-- The first frame and what follows it, if it is complete and not oversize. -/
def nextFrame (buffer : Bytes) : Option (Bytes × Bytes) :=
  match unpackSize buffer with
  | none => none
  | some size =>
      if maxMessageSize < size ∨ buffer.length < 4 + size then none
      else some ((buffer.drop 4).take size, buffer.drop (4 + size))

def framesFrom : Nat → Bytes → List Bytes
  | 0, _ => []
  | fuel + 1, buffer =>
      match nextFrame buffer with
      | none => []
      | some (payload, rest) => payload :: framesFrom fuel rest

/-- The payloads up to an oversize or incomplete frame. -/
def frames (stream : Bytes) : List Bytes := framesFrom stream.length stream

/-- What becomes of an endpoint with one frame. -/
def Endpoint.handle (endpoint : Endpoint) (payload : Bytes) : Endpoint :=
  match decode loads payload with
  | .message msg => endpoint.dispatch identity msg
  | .refused => endpoint.close
  | .raised => endpoint

def protocolAfter (protocol : GyzaProtocol) (payload : Bytes) : GyzaProtocol :=
  (Endpoint.handle identity loads { protocol } payload).protocol

/-- The message of a frame that is neither malformed nor rejected. -/
def accepts (protocol : GyzaProtocol) (payload : Bytes) : Option Fields :=
  match decode loads payload with
  | .message msg => if (protocol.dispatch identity msg).2.isEmpty then none else some msg
  | _ => none

/-- All messages that are taken up when no frame is left out. -/
def taken (protocol : GyzaProtocol) : List Bytes → List Fields
  | [] => []
  | payload :: later =>
      (accepts identity loads protocol payload).toList ++
        taken (protocolAfter identity loads protocol payload) later

/-- The messages before the first frame that is malformed or rejected. -/
def beforeFirstBad (protocol : GyzaProtocol) : List Bytes → List Fields
  | [] => []
  | payload :: later =>
      match accepts identity loads protocol payload with
      | none => []
      | some msg => msg :: beforeFirstBad (protocolAfter identity loads protocol payload) later

/-- The messages after it. -/
def afterFirstBad (protocol : GyzaProtocol) : List Bytes → List Fields
  | [] => []
  | payload :: later =>
      match accepts identity loads protocol payload with
      | none => taken identity loads (protocolAfter identity loads protocol payload) later
      | some _ => afterFirstBad (protocolAfter identity loads protocol payload) later

end Drain

/-! Reading frames off the front of a stream. -/

/-- The bytes begin with the frames of these payloads. -/
inductive Reads : Bytes → List Bytes → Bytes → Prop where
  | nil (bytes : Bytes) : Reads bytes [] bytes
  | cons {bytes payload rest left : Bytes} {payloads : List Bytes}
      (first : nextFrame bytes = some (payload, rest)) (later : Reads rest payloads left) :
      Reads bytes (payload :: payloads) left

def Oversize (buffer : Bytes) : Prop :=
  ∃ size, unpackSize buffer = some size ∧ maxMessageSize < size

theorem unpackSize_append {buffer : Bytes} {size : Nat} (unpacked : unpackSize buffer = some size)
    (more : Bytes) : unpackSize (buffer ++ more) = some size := by
  match buffer with
  | _ :: _ :: _ :: _ :: _ => exact unpacked
  | [] => cases unpacked
  | [_] => cases unpacked
  | [_, _] => cases unpacked
  | [_, _, _] => cases unpacked

theorem Oversize.append {buffer : Bytes} (oversize : Oversize buffer) (more : Bytes) :
    Oversize (buffer ++ more) := by
  obtain ⟨size, unpacked, large⟩ := oversize
  exact ⟨size, unpackSize_append unpacked more, large⟩

theorem nextFrame_eq_some_iff {buffer payload rest : Bytes} :
    nextFrame buffer = some (payload, rest) ↔ ∃ size, unpackSize buffer = some size ∧
      size ≤ maxMessageSize ∧ 4 + size ≤ buffer.length ∧
        payload = (buffer.drop 4).take size ∧ rest = buffer.drop (4 + size) := by
  rw [nextFrame]
  cases unpackSize buffer with
  | none => simp
  | some size =>
      dsimp only
      constructor
      · intro found
        split_ifs at found with bad
        push Not at bad
        cases found
        exact ⟨size, rfl, bad.1, bad.2, rfl, rfl⟩
      · rintro ⟨_, same, small, complete, rfl, rfl⟩
        cases same
        rw [if_neg (by omega)]

theorem nextFrame_append {buffer payload rest : Bytes}
    (found : nextFrame buffer = some (payload, rest)) (more : Bytes) :
    nextFrame (buffer ++ more) = some (payload, rest ++ more) := by
  obtain ⟨size, unpacked, small, complete, rfl, rfl⟩ := nextFrame_eq_some_iff.mp found
  refine nextFrame_eq_some_iff.mpr ⟨size, unpackSize_append unpacked more, small, ?_, ?_, ?_⟩
  · rw [List.length_append]
    omega
  · rw [List.drop_append_of_le_length (by omega), List.take_append_of_le_length]
    rw [List.length_drop]
    omega
  · rw [List.drop_append_of_le_length complete]

theorem length_of_nextFrame {buffer payload rest : Bytes}
    (found : nextFrame buffer = some (payload, rest)) : rest.length < buffer.length := by
  obtain ⟨size, -, -, complete, -, rfl⟩ := nextFrame_eq_some_iff.mp found
  rw [List.length_drop]
  omega

theorem Reads.append {bytes left : Bytes} {payloads : List Bytes}
    (reads : Reads bytes payloads left) (more : Bytes) :
    Reads (bytes ++ more) payloads (left ++ more) := by
  induction reads with
  | nil bytes => exact .nil _
  | cons first later ih => exact .cons (nextFrame_append first more) ih

theorem Reads.trans {bytes middle left : Bytes} {payloads others : List Bytes}
    (reads : Reads bytes payloads middle) (later : Reads middle others left) :
    Reads bytes (payloads ++ others) left := by
  induction reads with
  | nil bytes => exact later
  | cons first _ ih => exact .cons first (ih later)

theorem framesFrom_of_none {bytes : Bytes} (none_left : nextFrame bytes = none) (fuel : Nat) :
    framesFrom fuel bytes = [] := by
  cases fuel with
  | zero => rfl
  | succ fuel => rw [framesFrom, none_left]

theorem Reads.framesFrom {bytes left : Bytes} {payloads : List Bytes}
    (reads : Reads bytes payloads left) {fuel : Nat} (enough : bytes.length ≤ fuel) :
    ∃ others, framesFrom fuel bytes = payloads ++ others ∧
      (nextFrame left = none → others = []) := by
  induction reads generalizing fuel with
  | nil bytes => exact ⟨_, rfl, fun none_left => framesFrom_of_none none_left fuel⟩
  | cons first later ih =>
      have shorter := length_of_nextFrame first
      cases fuel with
      | zero => omega
      | succ fuel =>
          obtain ⟨others, same, ended⟩ := ih (Nat.le_of_lt_succ (lt_of_lt_of_le shorter enough))
          refine ⟨others, ?_, ended⟩
          rw [FrameDelivery.framesFrom, first]
          exact congrArg (_ :: ·) same

/-! What an event does to the frames of the buffer. -/

section Events

variable {crypto : Crypto} (identity : LocalCompositor crypto) (loads : Bytes → Parsed)

/-- The loop ends at a frame that is no message, if not for want of frames. -/
def Halts (payload : Bytes) : Prop := ∀ msg, decode loads payload ≠ .message msg

/-- After some frames of the buffer; what was done with an oversize one is left open. -/
structure Handled (endpoint : Endpoint) (buffer : Bytes) (payloads : List Bytes)
    (after : Connection) : Prop where
  reads : Reads buffer payloads after.buffer
  dispatched : after.endpoint.dispatched =
    (payloads.foldl (Endpoint.handle identity loads) endpoint).dispatched
  ended : nextFrame after.buffer = none ∨ ∃ payload ∈ payloads, Halts loads payload
  unclosed : ¬ Oversize after.buffer →
    after.endpoint = payloads.foldl (Endpoint.handle identity loads) endpoint

variable {identity loads}

theorem drainFrames_none {endpoint : Endpoint} {buffer : Bytes}
    (none_left : nextFrame buffer = none) (fuel : Nat) : Handled identity loads endpoint buffer []
      (drainFrames identity loads fuel ⟨endpoint, buffer⟩).1 := by
  cases fuel with
  | zero => exact ⟨.nil _, rfl, Or.inl none_left, fun _ => rfl⟩
  | succ fuel =>
      rw [drainFrames]
      cases unpacked : unpackSize buffer with
      | none => exact ⟨.nil _, rfl, Or.inl none_left, fun _ => rfl⟩
      | some size =>
          dsimp only
          split_ifs with large short
          · exact ⟨.nil _, rfl, Or.inl none_left, fun fits => absurd ⟨size, unpacked, large⟩ fits⟩
          · exact ⟨.nil _, rfl, Or.inl none_left, fun _ => rfl⟩
          · rw [nextFrame, unpacked] at none_left
            simp only [large, short, or_self, if_false, reduceCtorEq] at none_left

theorem drainFrames_some {endpoint : Endpoint} {buffer payload rest : Bytes}
    (first : nextFrame buffer = some (payload, rest)) (fuel : Nat) :
    drainFrames identity loads (fuel + 1) ⟨endpoint, buffer⟩ =
      match decode loads payload with
      | .message _ =>
          drainFrames identity loads fuel ⟨endpoint.handle identity loads payload, rest⟩
      | .refused => (⟨endpoint.handle identity loads payload, rest⟩, false)
      | .raised => (⟨endpoint.handle identity loads payload, rest⟩, true) := by
  obtain ⟨size, unpacked, small, complete, rfl, rfl⟩ := nextFrame_eq_some_iff.mp first
  rw [drainFrames, unpacked]
  dsimp only
  rw [if_neg (not_lt.mpr small), if_neg (not_lt.mpr complete), Endpoint.handle]
  cases decode loads ((buffer.drop 4).take size) <;> rfl

theorem drainFrames_handled {fuel : Nat} {buffer : Bytes} (enough : buffer.length ≤ fuel)
    (endpoint : Endpoint) : ∃ payloads, Handled identity loads endpoint buffer payloads
      (drainFrames identity loads fuel ⟨endpoint, buffer⟩).1 := by
  induction fuel generalizing buffer endpoint with
  | zero =>
      obtain rfl := List.length_eq_zero_iff.mp (Nat.le_zero.mp enough)
      exact ⟨[], drainFrames_none rfl 0⟩
  | succ fuel ih =>
      cases first : nextFrame buffer with
      | none => exact ⟨[], drainFrames_none first (fuel + 1)⟩
      | some frame =>
          obtain ⟨payload, rest⟩ := frame
          have shorter := length_of_nextFrame first
          have remaining : rest.length ≤ fuel := by omega
          rw [drainFrames_some first]
          cases decoded : decode loads payload with
          | message msg =>
              obtain ⟨payloads, reads, dispatched, ended, unclosed⟩ :=
                ih remaining (endpoint.handle identity loads payload)
              refine ⟨payload :: payloads, .cons first reads, dispatched, ?_, unclosed⟩
              refine ended.imp_right ?_
              rintro ⟨other, member, halts⟩
              exact ⟨other, List.mem_cons_of_mem _ member, halts⟩
          | refused =>
              refine ⟨[payload], .cons first (.nil rest), rfl, ?_, fun _ => rfl⟩
              refine Or.inr ⟨payload, List.mem_cons_self, fun msg same => ?_⟩
              rw [decoded] at same
              cases same
          | raised =>
              refine ⟨[payload], .cons first (.nil rest), rfl, ?_, fun _ => rfl⟩
              refine Or.inr ⟨payload, List.mem_cons_self, fun msg same => ?_⟩
              rw [decoded] at same
              cases same

theorem nextFrame_of_oversize {buffer : Bytes} (oversize : Oversize buffer) :
    nextFrame buffer = none := by
  obtain ⟨size, unpacked, large⟩ := oversize
  rw [nextFrame, unpacked]
  dsimp only
  rw [if_pos (Or.inl large)]

theorem Reads.eq_nil {bytes left : Bytes} {payloads : List Bytes}
    (reads : Reads bytes payloads left) (none_left : nextFrame bytes = none) :
    payloads = [] ∧ left = bytes := by
  cases reads with
  | nil bytes => exact ⟨rfl, rfl⟩
  | cons first later =>
      rw [none_left] at first
      cases first

/-- What more data adds. An oversize frame stays at the front of the buffer. -/
theorem Handled.more {endpoint : Endpoint} {bytes data : Bytes} {payloads others : List Bytes}
    {before after : Connection} (first : Handled identity loads endpoint bytes payloads before)
    (second : Handled identity loads before.endpoint (before.buffer ++ data) others after) :
    Handled identity loads endpoint (bytes ++ data) (payloads ++ others) after := by
  have reads := (first.reads.append data).trans second.reads
  have ended : nextFrame after.buffer = none ∨
      ∃ payload ∈ payloads ++ others, Halts loads payload := by
    refine second.ended.imp_right ?_
    rintro ⟨payload, member, halts⟩
    exact ⟨payload, List.mem_append_right _ member, halts⟩
  by_cases oversize : Oversize before.buffer
  · have none_left := nextFrame_of_oversize (oversize.append data)
    obtain ⟨rfl, same⟩ := second.reads.eq_nil none_left
    rw [List.append_nil] at reads ended ⊢
    refine ⟨reads, second.dispatched.trans first.dispatched, ended, fun fits => ?_⟩
    rw [same] at fits
    exact absurd (oversize.append data) fits
  · have start := first.unclosed oversize
    refine ⟨reads, ?_, ended, fun fits => ?_⟩
    · rw [second.dispatched, start, List.foldl_append]
    · rw [second.unclosed fits, start, List.foldl_append]

/-- A stream in events, of which only the last may end it. -/
structure Splits (stream : Bytes) (events : List StreamData) : Prop where
  data : events.flatMap StreamData.data = stream
  ends : ∀ event ∈ events.dropLast, event.endStream = false

theorem drained_handled {protocol : GyzaProtocol} {events : List StreamData} {bytes : Bytes}
    (data : Bytes) {payloads : List Bytes}
    (handled : Handled identity loads { protocol } bytes payloads
      (receiveAll identity loads protocol events)) :
    ∃ others, Handled identity loads { protocol } (bytes ++ data) (payloads ++ others)
      (drainFrames identity loads
        ((receiveAll identity loads protocol events).buffer ++ data).length
        ⟨(receiveAll identity loads protocol events).endpoint,
          (receiveAll identity loads protocol events).buffer ++ data⟩).1 := by
  obtain ⟨others, later⟩ := drainFrames_handled (le_refl
    ((receiveAll identity loads protocol events).buffer ++ data).length)
    (receiveAll identity loads protocol events).endpoint
  exact ⟨others, handled.more later⟩

theorem receiveAll_append (protocol : GyzaProtocol) (events : List StreamData)
    (event : StreamData) : receiveAll identity loads protocol (events ++ [event]) =
      quicEventReceived identity loads (receiveAll identity loads protocol events) event := by
  rw [receiveAll, List.foldl_append]
  rfl

theorem receiveAll_handled (protocol : GyzaProtocol) {events : List StreamData}
    (unended : ∀ event ∈ events, event.endStream = false) :
    ∃ payloads, Handled identity loads { protocol } (events.flatMap StreamData.data) payloads
      (receiveAll identity loads protocol events) := by
  induction events using List.reverseRecOn with
  | nil => exact ⟨[], .nil _, rfl, Or.inl rfl, fun _ => rfl⟩
  | append_singleton events event ih =>
      obtain ⟨payloads, handled⟩ :=
        ih fun other member => unended other (List.mem_append_left _ member)
      have open_stream := unended event (List.mem_append_right _ List.mem_cons_self)
      obtain ⟨others, later⟩ := drained_handled event.data handled
      refine ⟨payloads ++ others, ?_⟩
      rw [receiveAll_append, quicEventReceived, List.flatMap_append, List.flatMap_singleton]
      dsimp only
      rw [if_neg (by simp [open_stream])]
      exact later

/-- However a stream is split, its frames are handled in order, up to a frame that halts
the loop at least. -/
theorem receiveAll_frames (protocol : GyzaProtocol) {stream : Bytes} {events : List StreamData}
    (splits : Splits stream events) : ∃ payloads others, frames stream = payloads ++ others ∧
      (others = [] ∨ ∃ payload ∈ payloads, Halts loads payload) ∧
      (receiveAll identity loads protocol events).endpoint.dispatched =
        (payloads.foldl (Endpoint.handle identity loads) { protocol }).dispatched := by
  obtain ⟨rfl, ends⟩ := splits
  rcases events.eq_nil_or_concat with rfl | ⟨events, last, rfl⟩
  · exact ⟨[], [], rfl, Or.inl rfl, rfl⟩
  · rw [List.concat_eq_append, List.dropLast_concat] at ends
    obtain ⟨before, handled⟩ : ∃ before, Handled identity loads { protocol }
        (events.flatMap StreamData.data) before (receiveAll identity loads protocol events) :=
      receiveAll_handled protocol ends
    obtain ⟨later, final⟩ := drained_handled last.data handled
    obtain ⟨others, same, complete⟩ := final.reads.framesFrom (le_refl _)
    refine ⟨before ++ later, others, ?_, final.ended.imp_left complete, ?_⟩
    · rw [frames, List.concat_eq_append, List.flatMap_append, List.flatMap_singleton]
      exact same
    · rw [List.concat_eq_append, receiveAll_append, quicEventReceived]
      dsimp only
      split_ifs
      · exact final.dispatched
      · exact final.dispatched

end Events

/-! What the frames do, whichever event brought them. -/

section Messages

variable {crypto : Crypto} {identity : LocalCompositor crypto} {loads : Bytes → Parsed}

/-- A message that is rejected closes the connection, and no other message does. -/
theorem dispatch_outcome (protocol : GyzaProtocol) (msg : Fields) :
    (protocol.dispatch identity msg).2.isEmpty = true ∧
        (protocol.dispatch identity msg).1 = { protocol with closed := true } ∨
      (protocol.dispatch identity msg).2.isEmpty = false ∧
        (protocol.dispatch identity msg).1.closed = protocol.closed := by
  have handled := GyzaProtocol.dispatch_handled identity protocol msg
  generalize (protocol.dispatch identity msg).1 = after at handled ⊢
  generalize (protocol.dispatch identity msg).2 = actions at handled ⊢
  cases handled with
  | refused => exact Or.inl ⟨rfl, rfl⟩
  | proved => exact Or.inr ⟨rfl, rfl⟩
  | challenged => exact Or.inr ⟨rfl, rfl⟩
  | acknowledged => exact Or.inr ⟨rfl, rfl⟩
  | app => exact Or.inr ⟨rfl, rfl⟩

theorem handle_protocol (endpoint : Endpoint) (payload : Bytes) :
    (endpoint.handle identity loads payload).protocol =
      protocolAfter identity loads endpoint.protocol payload := by
  rw [protocolAfter, Endpoint.handle, Endpoint.handle]
  cases decode loads payload <;> rfl

theorem handle_dispatched (endpoint : Endpoint) (payload : Bytes) :
    (endpoint.handle identity loads payload).dispatched = endpoint.dispatched ++
      (accepts identity loads endpoint.protocol payload).toList.map
        fun msg => (endpoint.protocol.closed, msg) := by
  rw [Endpoint.handle, accepts]
  cases decode loads payload with
  | message msg =>
      dsimp only [Endpoint.dispatch]
      split_ifs
      · exact (List.append_nil _).symm
      · rfl
  | refused => exact (List.append_nil _).symm
  | raised => exact (List.append_nil _).symm

theorem closed_protocolAfter {protocol : GyzaProtocol} {payload : Bytes} {msg : Fields}
    (accepted : accepts identity loads protocol payload = some msg) :
    (protocolAfter identity loads protocol payload).closed = protocol.closed := by
  rw [accepts] at accepted
  rw [protocolAfter, Endpoint.handle]
  cases decoded : decode loads payload with
  | message other =>
      rw [decoded] at accepted
      dsimp only at accepted
      split_ifs at accepted with rejected
      obtain ⟨empty, -⟩ | ⟨-, kept⟩ := @dispatch_outcome crypto identity protocol other
      · exact absurd empty rejected
      · exact kept
  | refused =>
      rw [decoded] at accepted
      cases accepted
  | raised => rfl

theorem accepts_of_halts {payload : Bytes} (halts : Halts loads payload) (protocol : GyzaProtocol) :
    accepts identity loads protocol payload = none := by
  rw [accepts]
  cases decoded : decode loads payload with
  | message msg => exact absurd decoded (halts msg)
  | refused => rfl
  | raised => rfl

theorem dispatched_foldl (endpoint : Endpoint) (payloads : List Bytes) :
    ∃ entries, (payloads.foldl (Endpoint.handle identity loads) endpoint).dispatched =
        endpoint.dispatched ++ entries ∧
      entries.map Prod.snd = taken identity loads endpoint.protocol payloads := by
  induction payloads generalizing endpoint with
  | nil => exact ⟨[], (List.append_nil _).symm, rfl⟩
  | cons payload payloads ih =>
      obtain ⟨entries, dispatched, messages⟩ := ih (endpoint.handle identity loads payload)
      rw [handle_protocol] at messages
      rw [handle_dispatched, List.append_assoc] at dispatched
      refine ⟨_, dispatched, ?_⟩
      · rw [List.map_append, messages, List.map_map, taken]
        simp

/-- Without messages after the first bad frame, no message comes after the close. -/
theorem unclosed_foldl {endpoint : Endpoint} {payloads : List Bytes}
    (opened : endpoint.protocol.closed = false)
    (none_late : afterFirstBad identity loads endpoint.protocol payloads = [])
    (clean : ∀ entry ∈ endpoint.dispatched, entry.1 = false) :
    ∀ entry ∈ (payloads.foldl (Endpoint.handle identity loads) endpoint).dispatched,
      entry.1 = false := by
  induction payloads generalizing endpoint with
  | nil => exact clean
  | cons payload payloads ih =>
      have grown := @handle_dispatched crypto identity loads endpoint payload
      rw [afterFirstBad] at none_late
      rw [List.foldl_cons]
      cases accepted : accepts identity loads endpoint.protocol payload with
      | none =>
          rw [accepted] at grown
          simp only [accepted] at none_late
          obtain ⟨entries, dispatched, messages⟩ :=
            dispatched_foldl (endpoint.handle identity loads payload) payloads
          rw [handle_protocol, none_late, List.map_eq_nil_iff] at messages
          rw [dispatched, messages, grown, List.append_nil]
          simpa using clean
      | some msg =>
          rw [accepted] at grown
          simp only [accepted] at none_late
          refine ih ?_ ?_ ?_
          · rw [handle_protocol, closed_protocolAfter accepted, opened]
          · rw [handle_protocol]
            exact none_late
          · rw [grown, opened]
            simpa using clean

theorem taken_eq (protocol : GyzaProtocol) (payloads : List Bytes) :
    taken identity loads protocol payloads =
      beforeFirstBad identity loads protocol payloads ++
        afterFirstBad identity loads protocol payloads := by
  induction payloads generalizing protocol with
  | nil => rfl
  | cons payload payloads ih =>
      rw [taken, beforeFirstBad, afterFirstBad]
      cases accepts identity loads protocol payload with
      | none => rfl
      | some msg => exact congrArg (msg :: ·) (ih _)

theorem taken_grow (protocol : GyzaProtocol) (payloads others : List Bytes) :
    taken identity loads protocol payloads <+:
      taken identity loads protocol (payloads ++ others) := by
  induction payloads generalizing protocol with
  | nil => exact List.nil_prefix
  | cons payload payloads ih =>
      rw [List.cons_append, taken, taken]
      exact (List.prefix_append_right_inj _).mpr (ih _)

/-- Past a frame that halts the loop, all frames come after the first bad one. -/
theorem firstBad_append {payloads : List Bytes} (others : List Bytes)
    (halted : others = [] ∨ ∃ payload ∈ payloads, Halts loads payload) (protocol : GyzaProtocol) :
    beforeFirstBad identity loads protocol (payloads ++ others) =
        beforeFirstBad identity loads protocol payloads ∧
      afterFirstBad identity loads protocol payloads <+:
        afterFirstBad identity loads protocol (payloads ++ others) := by
  obtain rfl | ⟨payload, member, halts⟩ := halted
  · rw [List.append_nil]
    exact ⟨rfl, List.prefix_refl _⟩
  · induction payloads generalizing protocol with
    | nil => cases member
    | cons first payloads ih =>
        rw [List.cons_append, beforeFirstBad, beforeFirstBad, afterFirstBad, afterFirstBad]
        cases accepted : accepts identity loads protocol first with
        | none => exact ⟨rfl, taken_grow _ payloads others⟩
        | some msg =>
            have later : payload ∈ payloads := by
              obtain rfl | later := List.mem_cons.mp member
              · rw [accepts_of_halts halts] at accepted
                cases accepted
              · exact later
            obtain ⟨before, after⟩ := ih (protocolAfter identity loads protocol first) later
            exact ⟨congrArg (msg :: ·) before, after⟩

end Messages

/-! A stream whose frames come one by one. -/

section FrameByFrame

theorem unpackSize_take {buffer : Bytes} {size : Nat} (unpacked : unpackSize buffer = some size)
    (more : Nat) : unpackSize (buffer.take (4 + more)) = some size := by
  match buffer with
  | a :: b :: c :: d :: rest =>
      have four : (a :: b :: c :: d :: rest).take (4 + more) =
          a :: b :: c :: d :: rest.take more := by
        rw [Nat.add_comm]
        rfl
      rw [four]
      exact unpacked
  | [] => cases unpacked
  | [_] => cases unpacked
  | [_, _] => cases unpacked
  | [_, _, _] => cases unpacked

theorem nextFrame_split {buffer payload rest : Bytes}
    (found : nextFrame buffer = some (payload, rest)) :
    ∃ frame, buffer = frame ++ rest ∧ nextFrame frame = some (payload, []) := by
  obtain ⟨size, unpacked, small, complete, rfl, rfl⟩ := nextFrame_eq_some_iff.mp found
  have length : (buffer.take (4 + size)).length = 4 + size := List.length_take_of_le complete
  refine ⟨buffer.take (4 + size), (List.take_append_drop _ _).symm, ?_⟩
  refine nextFrame_eq_some_iff.mpr ⟨size, unpackSize_take unpacked size, small, length.ge, ?_, ?_⟩
  · rw [List.drop_take, Nat.add_sub_cancel_left, List.take_take, min_self]
  · rw [List.drop_eq_nil_of_le length.le]

theorem frames_reads (stream : Bytes) :
    ∃ left, Reads stream (frames stream) left ∧ nextFrame left = none := by
  have framed : ∀ fuel buffer, buffer.length ≤ fuel →
      ∃ left, Reads buffer (framesFrom fuel buffer) left ∧ nextFrame left = none := by
    intro fuel
    induction fuel with
    | zero =>
        intro buffer enough
        obtain rfl := List.length_eq_zero_iff.mp (Nat.le_zero.mp enough)
        exact ⟨[], .nil _, rfl⟩
    | succ fuel ih =>
        intro buffer enough
        rw [framesFrom]
        cases first : nextFrame buffer with
        | none => exact ⟨buffer, .nil _, first⟩
        | some frame =>
            have shorter := length_of_nextFrame first
            obtain ⟨left, reads, ended⟩ := ih frame.2 (by omega)
            exact ⟨left, .cons first reads, ended⟩
  exact framed stream.length stream (le_refl _)

variable {crypto : Crypto} {identity : LocalCompositor crypto} {loads : Bytes → Parsed}

theorem drainFrames_nil (fuel : Nat) (endpoint : Endpoint) :
    drainFrames identity loads fuel ⟨endpoint, []⟩ = (⟨endpoint, []⟩, false) := by
  cases fuel <;> rfl

theorem quicEventReceived_frame {frame payload : Bytes}
    (found : nextFrame frame = some (payload, [])) (endpoint : Endpoint) :
    quicEventReceived identity loads ⟨endpoint, []⟩ ⟨frame, false⟩ =
      ⟨endpoint.handle identity loads payload, []⟩ := by
  obtain ⟨fuel, length⟩ := Nat.exists_eq_add_of_lt (length_of_nextFrame found)
  rw [quicEventReceived]
  dsimp only
  rw [List.nil_append, if_neg (by simp), length, drainFrames_some found]
  cases decode loads payload with
  | message msg =>
      dsimp only
      rw [drainFrames_nil]
  | refused => rfl
  | raised => rfl

theorem foldl_frames {stream left : Bytes} {payloads : List Bytes}
    (reads : Reads stream payloads left) (endpoint : Endpoint) :
    ∃ events : List StreamData, (∀ event ∈ events, event.endStream = false) ∧
      events.flatMap StreamData.data ++ left = stream ∧
      events.foldl (quicEventReceived identity loads) ⟨endpoint, []⟩ =
        ⟨payloads.foldl (Endpoint.handle identity loads) endpoint, []⟩ := by
  induction reads generalizing endpoint with
  | nil bytes => exact ⟨[], List.forall_mem_nil _, rfl, rfl⟩
  | @cons bytes payload rest left payloads first later ih =>
      obtain ⟨frame, rfl, alone⟩ := nextFrame_split first
      obtain ⟨events, unended, rfl, run⟩ := ih (endpoint.handle identity loads payload)
      refine ⟨⟨frame, false⟩ :: events, ?_, ?_, ?_⟩
      · intro event member
        obtain rfl | later := List.mem_cons.mp member
        · rfl
        · exact unended event later
      · rw [List.flatMap_cons, List.append_assoc]
      · rw [List.foldl_cons, quicEventReceived_frame alone, run, List.foldl_cons]

/-- Every frame of a stream is handled when each has an event of its own. -/
theorem exists_splits_all (protocol : GyzaProtocol) (stream : Bytes) :
    ∃ events, Splits stream events ∧
      (receiveAll identity loads protocol events).endpoint.dispatched =
        ((frames stream).foldl (Endpoint.handle identity loads) { protocol }).dispatched := by
  obtain ⟨left, reads, ended⟩ := frames_reads stream
  obtain ⟨events, unended, rfl, run⟩ := @foldl_frames crypto identity loads _ _ _ reads { protocol }
  refine ⟨events ++ [⟨left, false⟩], ⟨?_, ?_⟩, ?_⟩
  · rw [List.flatMap_append, List.flatMap_singleton]
  · rw [List.dropLast_concat]
    exact unended
  · rw [receiveAll_append, receiveAll, run, quicEventReceived]
    dsimp only
    rw [List.nil_append, if_neg (by simp)]
    exact (drainFrames_none ended left.length).dispatched

end FrameByFrame

section Delivery

variable {crypto : Crypto} (identity : LocalCompositor crypto) (loads : Bytes → Parsed)

/-- Every way of splitting the stream gives the messages before the first bad frame, and none
after the close, exactly when no later frame would be accepted. -/
theorem delivery_iff {protocol : GyzaProtocol} (opened : protocol.closed = false)
    (stream : Bytes) :
    (∀ events, Splits stream events →
      (receiveAll identity loads protocol events).endpoint.dispatched.map Prod.snd =
          beforeFirstBad identity loads protocol (frames stream) ∧
        ∀ entry ∈ (receiveAll identity loads protocol events).endpoint.dispatched,
          entry.1 = false) ↔
      afterFirstBad identity loads protocol (frames stream) = [] := by
  have messages : ∀ payloads : List Bytes,
      (payloads.foldl (Endpoint.handle identity loads) { protocol }).dispatched.map Prod.snd =
        taken identity loads protocol payloads := by
    intro payloads
    obtain ⟨entries, dispatched, same⟩ :=
      @dispatched_foldl crypto identity loads { protocol } payloads
    rw [dispatched, List.nil_append, same]
  constructor
  · intro delivered
    obtain ⟨events, splits, all⟩ := @exists_splits_all crypto identity loads protocol stream
    have first := (delivered events splits).1
    rw [all, messages, taken_eq] at first
    exact List.append_right_eq_self.mp first
  · intro none_late events splits
    obtain ⟨payloads, others, split, halted, dispatched⟩ :=
      @receiveAll_frames crypto identity loads protocol stream events splits
    obtain ⟨before, after⟩ := @firstBad_append crypto identity loads payloads others halted protocol
    rw [split] at none_late ⊢
    have none_taken : afterFirstBad identity loads protocol payloads = [] :=
      List.prefix_nil.mp (none_late ▸ after)
    constructor
    · rw [dispatched, messages, taken_eq, none_taken, before, List.append_nil]
    · rw [dispatched]
      exact unclosed_foldl opened none_taken (List.forall_mem_nil _)

end Delivery

/-! An initiator that is authenticated already. -/

section Initiator

open GyzaProtocol (Action)

def authenticated : GyzaProtocol where
  isInitiator := true
  ourNonce := List.replicate 32 0
  ourNonce_length := List.length_replicate
  authenticated := true
  remotePubkey := some "peer"

def chat : Bytes := Hex.utf8 "\x7b\"type\":\"chat\"\x7d"

def helloAck : Bytes := Hex.utf8 "\x7b\"type\":\"hello_ack\"\x7d"

/-- Reads two texts, as `json.loads` does. -/
def readsTwo (payload : Bytes) : Parsed :=
  if payload = chat then .document (.dict [("type", .str "chat")])
  else if payload = helloAck then .document (.dict [("type", .str "hello_ack")])
  else .malformed

/-- A frame of less than 256 bytes. -/
def frameOf (payload : Bytes) : Bytes := [0, 0, 0, UInt8.ofNat payload.length] ++ payload

/-- The frame in two parts, cut in its size. -/
def chatParts : List StreamData :=
  [⟨(frameOf chat).take 3, false⟩, ⟨(frameOf chat).drop 3, true⟩]

theorem chatParts_delivered :
    (receiveAll (Sample.compositor 7) readsTwo authenticated chatParts).endpoint.dispatched.map
        Prod.snd =
      beforeFirstBad (Sample.compositor 7) readsTwo authenticated (frames (frameOf chat)) ∧
    ∀ entry ∈ (receiveAll (Sample.compositor 7) readsTwo authenticated
      chatParts).endpoint.dispatched, entry.1 = false := by
  have none_late : afterFirstBad (Sample.compositor 7) readsTwo authenticated
      (frames (frameOf chat)) = [] := by
    rw [← List.isEmpty_iff]
    decide +kernel
  have splits : Splits (frameOf chat) chatParts := ⟨by decide +kernel, by decide⟩
  exact (delivery_iff (Sample.compositor 7) readsTwo rfl (frameOf chat)).mpr none_late chatParts
    splits

/-- A message is handed on after a rejected frame in the same data. After an empty frame, which
is no JSON, it is handed on when it comes in an event of its own. -/
theorem chat_after_close :
    (receiveAll (Sample.compositor 7) readsTwo authenticated
        [⟨frameOf helloAck ++ frameOf chat, false⟩]).endpoint.dispatched =
      [(true, [("type", .str "chat")])] ∧
    (receiveAll (Sample.compositor 7) readsTwo authenticated
        [⟨frameOf [] ++ frameOf chat, false⟩]).endpoint.dispatched = [] ∧
    (receiveAll (Sample.compositor 7) readsTwo authenticated
        [⟨frameOf [], false⟩, ⟨frameOf chat, false⟩]).endpoint.dispatched =
      [(true, [("type", .str "chat")])] := by
  refine ⟨rfl, rfl, rfl⟩

end Initiator

end Gyza.FrameDelivery

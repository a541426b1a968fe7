import Gyza.Lib.Uvarint

/-! Frames of a message stream (`netd/internal/message/message.go`).

A frame is the length of the type, the type, the length of the payload and the payload. A Go
string is the list of its bytes, and a stream is the bytes that arrive before its end. -/

namespace Gyza.MessageFrame

open Uvarint (Bytes VarintError maxVarintLen64 putUvarint readUvarint)

def maxTypeLen : Nat := 256

def maxPayloadLen : Nat := 4 * 1024 * 1024

/-- The size of the buffer of a `bufio.Reader`. -/
def defaultBufSize : Nat := 4096

inductive InvalidFrame where
  | typeRequired
  | typeTooLong (length : Nat)
  | payloadTooLarge (length : Nat)
  deriving DecidableEq

def validateFrame (messageType payload : Bytes) : Except InvalidFrame Unit :=
  if messageType = [] then .error .typeRequired
  else if maxTypeLen < messageType.length then .error (.typeTooLong messageType.length)
  else if maxPayloadLen < payload.length then .error (.payloadTooLarge payload.length)
  else .ok ()

/-- `none` is a length that does not fit its buffer. -/
def writeUvarint (v : UInt64) : Option Bytes := putUvarint maxVarintLen64 v

/-- The bytes of a frame, written to a stream that takes them all. -/
def writeFrame (messageType payload : Bytes) : Option Bytes :=
  match writeUvarint (UInt64.ofNat messageType.length),
      writeUvarint (UInt64.ofNat payload.length) with
  | some typeLen, some payloadLen => some (typeLen ++ (messageType ++ (payloadLen ++ payload)))
  | _, _ => none

inductive FrameError where
  | readTypeLen (cause : VarintError)
  | typeLenExceeds (length : UInt64)
  | readType (cause : VarintError)
  | readPayloadLen (cause : VarintError)
  | payloadLenExceeds (length : UInt64)
  | readPayload (cause : VarintError)
  deriving DecidableEq

/-- `io.ReadFull` into a buffer of so many bytes. -/
def readFull (length : Nat) (input : Bytes) : Except VarintError (Bytes × Bytes) :=
  if length ≤ input.length then .ok (input.take length, input.drop length)
  else .error (if input = [] then .eof else .unexpectedEOF)

/-- What a call of `readFrame` returns, and the sizes of the buffers it makes for what it reads. -/
structure Read where
  result : Except FrameError (Bytes × Bytes)
  made : List Nat

/-- All bytes of buffers, with those of the `bufio.Reader`. -/
def Read.allocated (read : Read) : Nat := defaultBufSize + read.made.sum

theorem Read.allocated_two (result : Except FrameError (Bytes × Bytes)) (first second : Nat) :
    Read.allocated ⟨result, [first, second]⟩ = defaultBufSize + (first + second) := by
  rw [allocated, List.sum_cons, List.sum_singleton]

def readPayload (messageType : Bytes) (rest : Bytes) : Read :=
  match readUvarint rest with
  | .error cause => ⟨.error (.readPayloadLen cause), []⟩
  | .ok (payloadLen, rest) =>
      if maxPayloadLen < payloadLen.toNat then ⟨.error (.payloadLenExceeds payloadLen), []⟩
      else
        match readFull payloadLen.toNat rest with
        | .error cause => ⟨.error (.readPayload cause), [payloadLen.toNat]⟩
        | .ok (payload, _) => ⟨.ok (messageType, payload), [payloadLen.toNat]⟩

def readFrame (input : Bytes) : Read :=
  match readUvarint input with
  | .error cause => ⟨.error (.readTypeLen cause), []⟩
  | .ok (typeLen, rest) =>
      if maxTypeLen < typeLen.toNat then ⟨.error (.typeLenExceeds typeLen), []⟩
      else
        match readFull typeLen.toNat rest with
        | .error cause => ⟨.error (.readType cause), [typeLen.toNat]⟩
        | .ok (messageType, rest) =>
            { readPayload messageType rest with
              made := typeLen.toNat :: (readPayload messageType rest).made }

/-- What a sender may put in a frame. -/
structure ValidFrame (messageType payload : Bytes) : Prop where
  named : messageType ≠ []
  short : messageType.length ≤ maxTypeLen
  small : payload.length ≤ maxPayloadLen

theorem validateFrame_ok_iff (messageType payload : Bytes) :
    validateFrame messageType payload = .ok () ↔ ValidFrame messageType payload := by
  rw [validateFrame]
  constructor
  · intro valid
    split_ifs at valid with unnamed long large
    exact ⟨unnamed, not_lt.mp long, not_lt.mp large⟩
  · rintro ⟨named, short, small⟩
    rw [if_neg named, if_neg (not_lt.mpr short), if_neg (not_lt.mpr small)]

/-! Reading what was written. -/

theorem readFull_append (front rest : Bytes) :
    readFull front.length (front ++ rest) = .ok (front, rest) := by
  rw [readFull, if_pos (by rw [List.length_append]; omega), List.take_left, List.drop_left]

/-- A number is written, and read back from the front of what follows. -/
theorem writeUvarint_read (v : UInt64) : ∃ word, writeUvarint v = some word ∧
    ∀ rest, readUvarint (word ++ rest) = .ok (v, rest) := by
  obtain ⟨word, put⟩ := Uvarint.putUvarint_total v
  exact ⟨word, put, fun rest => Uvarint.readUvarint_put rest put⟩

theorem toNat_length {length : Nat} (bounded : length ≤ maxPayloadLen) :
    (UInt64.ofNat length).toNat = length := by
  rw [maxPayloadLen] at bounded
  rw [UInt64.toNat_ofNat']
  omega

theorem readPayload_append {payload payloadLen : Bytes} (messageType trailing : Bytes)
    (small : payload.length ≤ maxPayloadLen)
    (read : ∀ rest, readUvarint (payloadLen ++ rest) = .ok (UInt64.ofNat payload.length, rest)) :
    readPayload messageType (payloadLen ++ (payload ++ trailing)) =
      ⟨.ok (messageType, payload), [payload.length]⟩ := by
  simp only [readPayload, read, toNat_length small, if_neg (not_lt.mpr small), readFull_append]

theorem readFrame_writeFrame {messageType payload : Bytes}
    (valid : ValidFrame messageType payload) :
    ∃ frame, writeFrame messageType payload = some frame ∧
      ∀ trailing, readFrame (frame ++ trailing) =
        ⟨.ok (messageType, payload), [messageType.length, payload.length]⟩ := by
  have shorter : messageType.length ≤ maxPayloadLen := valid.short.trans (by decide)
  obtain ⟨typeLen, wroteType, readType⟩ := writeUvarint_read (.ofNat messageType.length)
  obtain ⟨payloadLen, wrotePayload, readPayloadLen⟩ := writeUvarint_read (.ofNat payload.length)
  refine ⟨typeLen ++ (messageType ++ (payloadLen ++ payload)), ?_, ?_⟩
  · rw [writeFrame, wroteType, wrotePayload]
  · intro trailing
    have rest := readPayload_append messageType trailing valid.small readPayloadLen
    simp only [List.append_assoc, readFrame, readType, toNat_length shorter,
      if_neg (not_lt.mpr valid.short), readFull_append, rest]

/-! What a stream can make the reader allocate. -/

theorem readPayload_made (messageType rest : Bytes) :
    (readPayload messageType rest).made.sum ≤ maxPayloadLen := by
  unfold readPayload
  split
  · exact Nat.zero_le _
  · split_ifs with large
    · exact Nat.zero_le _
    · split
      · exact not_lt.mp large
      · exact not_lt.mp large

theorem readFrame_made (input : Bytes) :
    (readFrame input).made.sum ≤ maxTypeLen + maxPayloadLen := by
  unfold readFrame
  split
  · exact Nat.zero_le _
  · rename_i typeLen rest _
    split_ifs with long
    · exact Nat.zero_le _
    · have short := not_lt.mp long
      split
      · rw [List.sum_singleton]
        omega
      · rename_i messageType rest _
        have payload := readPayload_made messageType rest
        rw [List.sum_cons]
        omega

/-- The lengths in the frame choose no more than both caps together; the `bufio.Reader` comes with
its own buffer. -/
theorem message_frame_prefix_code :
    (∀ messageType payload trailing, ValidFrame messageType payload →
      ∃ frame, writeFrame messageType payload = some frame ∧
        (readFrame (frame ++ trailing)).result = .ok (messageType, payload)) ∧
    ∀ input, (readFrame input).made.sum ≤ maxTypeLen + maxPayloadLen ∧
      (readFrame input).allocated ≤ defaultBufSize + (maxTypeLen + maxPayloadLen) := by
  constructor
  · intro messageType payload trailing valid
    obtain ⟨frame, written, read⟩ := readFrame_writeFrame valid
    exact ⟨frame, written, congrArg Read.result (read trailing)⟩
  · intro input
    have made := readFrame_made input
    exact ⟨made, Nat.add_le_add_left made defaultBufSize⟩

namespace Sample

def messageType : Bytes := [0x61]

def largest : Bytes := List.replicate maxPayloadLen 0

theorem length_largest : largest.length = maxPayloadLen := by rw [largest, List.length_replicate]

theorem largest_valid : ValidFrame messageType largest where
  named := List.cons_ne_nil _ _
  short := by decide
  small := length_largest.le

end Sample

theorem message_frame_largest :
    ∃ frame, writeFrame Sample.messageType Sample.largest = some frame ∧
      (readFrame (frame ++ [0x00])).result = .ok (Sample.messageType, Sample.largest) :=
  message_frame_prefix_code.1 Sample.messageType Sample.largest [0x00] Sample.largest_valid

/-- A payload of the largest length leaves no room for the reader's own buffer. -/
theorem message_frame_beyond_caps :
    ∃ frame, writeFrame Sample.messageType Sample.largest = some frame ∧
      maxTypeLen + maxPayloadLen < (readFrame frame).allocated := by
  obtain ⟨frame, written, read⟩ := readFrame_writeFrame Sample.largest_valid
  refine ⟨frame, written, ?_⟩
  have whole := congrArg Read.allocated (read [])
  rw [List.append_nil, Read.allocated_two, Sample.length_largest] at whole
  calc
    maxTypeLen + maxPayloadLen < defaultBufSize + (1 + maxPayloadLen) := by decide
    _ = (readFrame frame).allocated := whole.symm

end Gyza.MessageFrame

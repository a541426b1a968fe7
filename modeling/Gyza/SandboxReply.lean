import Gyza.Lib.Hex
import Gyza.Lib.PrefixCode

/-! The reply of a sandboxed run: `_write_framed` of `gyza/sandbox/_entrypoint.py` and
`_parse_framed_response` of `gyza/sandbox/runner.py`.

What the sandboxed code printed stands before the frame, and the reader looks for the frame
from the end. `json.loads` is a parameter. -/

namespace Gyza.Sandbox

open Hex (Bytes)
open PrefixCode (bigEndian ofBigEndian)

def headerSize : Nat := 8

def writeFramed (payload : Bytes) : Bytes := bigEndian headerSize payload.length ++ payload

/-- `json.loads(data.decode("utf-8"))`. -/
inductive Loaded (Json : Type) where
  | value (document : Json)
  | decodeError
  /-- The bytes are no UTF-8; nothing catches this. -/
  | unicodeError

inductive ReplyError where
  | tooShort
  | notLocated
  | decodeError
  | unicodeError
  deriving DecidableEq

section Reading

variable {Json : Type} (loads : Bytes → Loaded Json)

/-- `struct.unpack("!Q", stdout[offset:offset + 8])`. -/
def sizeAt (stdout : Bytes) (offset : Nat) : Nat :=
  ofBigEndian ((stdout.drop offset).take headerSize)

/-- A frame that starts here ends where the output does. -/
def Fits (stdout : Bytes) (offset : Nat) : Prop :=
  sizeAt stdout offset + headerSize + offset = stdout.length

instance (stdout : Bytes) (offset : Nat) : Decidable (Fits stdout offset) :=
  inferInstanceAs (Decidable (_ = _))

/-- The loop over the offsets below `bound`, the last one first. -/
def scanBack (stdout : Bytes) : Nat → Except ReplyError Json
  | 0 => .error .notLocated
  | offset + 1 =>
      if Fits stdout offset then
        match loads (stdout.drop (offset + headerSize)) with
        | .value document => .ok document
        | .decodeError => scanBack stdout offset
        | .unicodeError => .error .unicodeError
      else scanBack stdout offset

def parseFramedResponse (stdout : Bytes) : Except ReplyError Json :=
  if stdout.length < headerSize then .error .tooShort
  else if Fits stdout 0 then
    match loads (stdout.drop headerSize) with
    | .value document => .ok document
    | .decodeError => .error .decodeError
    | .unicodeError => .error .unicodeError
  else scanBack loads stdout (stdout.length - headerSize)

end Reading

/-! Where no frame can start. -/

/-- The size read at an offset whose byte is not zero is beyond any output. -/
theorem not_fits_of_pos {stdout : Bytes} {offset : Nat} {byte : UInt8}
    (short : stdout.length < 2 ^ 56) (room : offset + headerSize ≤ stdout.length)
    (here : stdout[offset]? = some byte) (positive : 0 < byte.toNat) : ¬Fits stdout offset := by
  have front : (stdout.drop offset).take headerSize =
      byte :: ((stdout.drop (offset + 1)).take 7) := by
    obtain ⟨inside, rfl⟩ := List.getElem?_eq_some_iff.mp here
    rw [List.drop_eq_getElem_cons inside, headerSize, List.take_succ_cons]
  have width : ((stdout.drop (offset + 1)).take 7).length = 7 := by
    rw [List.length_take, List.length_drop]
    unfold headerSize at room
    omega
  have large := PrefixCode.le_ofBigEndian_cons byte ((stdout.drop (offset + 1)).take 7)
  rw [width, ← front] at large
  intro fits
  unfold Fits sizeAt at fits
  omega

theorem scanBack_none {Json : Type} {loads : Bytes → Loaded Json} {stdout : Bytes} {bound : Nat}
    (nowhere : ∀ offset < bound, ¬Fits stdout offset) :
    scanBack loads stdout bound = .error .notLocated := by
  induction bound with
  | zero => rfl
  | succ offset ih =>
      rw [scanBack, if_neg (nowhere offset (Nat.lt_succ_self offset))]
      exact ih fun earlier below => nowhere earlier (Nat.lt_succ_of_lt below)

/-- The scan passes over offsets where no frame fits. -/
theorem scanBack_skip {Json : Type} {loads : Bytes → Loaded Json} {stdout : Bytes}
    {start bound : Nat} (below : start ≤ bound)
    (nowhere : ∀ offset, start ≤ offset → offset < bound → ¬Fits stdout offset) :
    scanBack loads stdout bound = scanBack loads stdout start := by
  induction bound, below using Nat.le_induction with
  | base => rfl
  | succ offset reached ih =>
      rw [scanBack, if_neg (nowhere offset reached (Nat.lt_succ_self offset))]
      exact ih fun earlier reached before => nowhere earlier reached (Nat.lt_succ_of_lt before)

section Torn

variable {noise payload : Bytes} {sent : Nat}

theorem length_writeFramed (payload : Bytes) :
    (writeFramed payload).length = headerSize + payload.length := by
  rw [writeFramed, List.length_append, PrefixCode.length_bigEndian]

/-- Output before the frame, byte by byte. -/
theorem not_fits_noise (text : ∀ byte ∈ noise, byte ≠ 0) {torn : Bytes}
    (short : (noise ++ torn).length < 2 ^ 56) {offset : Nat} (before : offset < noise.length)
    (room : offset + headerSize ≤ (noise ++ torn).length) : ¬Fits (noise ++ torn) offset := by
  have here : (noise ++ torn)[offset]? = some noise[offset] := by
    rw [List.getElem?_append_left before, List.getElem?_eq_getElem before]
  have nonzero : noise[offset] ≠ 0 := text _ (List.getElem_mem before)
  apply not_fits_of_pos short room here
  by_contra zero
  exact nonzero (UInt8.toNat_inj.mp (Nat.eq_zero_of_not_pos zero))

/-- What stands at the frame's own places once the frame has been cut off at `sent`. -/
theorem drop_noise (noise torn : Bytes) (skipped : Nat) :
    (noise ++ torn).drop (noise.length + skipped) = torn.drop skipped := by
  rw [← List.drop_drop, List.drop_left]

theorem sizeAt_noise (noise torn : Bytes) (skipped : Nat) :
    sizeAt (noise ++ torn) (noise.length + skipped) = sizeAt torn skipped := by
  rw [sizeAt, sizeAt, drop_noise]

theorem sizeAt_header (payload : Bytes) {sent : Nat} (all : headerSize ≤ sent) :
    sizeAt ((writeFramed payload).take sent) 0 = payload.length % 256 ^ headerSize := by
  rw [sizeAt, List.drop_zero, List.take_take, Nat.min_eq_left all, writeFramed,
    List.take_left' (PrefixCode.length_bigEndian _ _), PrefixCode.ofBigEndian_bigEndian]

/-- Between the header and the payload: the end of the one and the front of the other. -/
theorem sizeAt_overlap (payload : Bytes) {sent skipped : Nat} (inside : skipped ≤ headerSize)
    (room : skipped + headerSize ≤ ((writeFramed payload).take sent).length) :
    sizeAt ((writeFramed payload).take sent) skipped =
      payload.length % 256 ^ (headerSize - skipped) * 256 ^ skipped +
        ofBigEndian (payload.take skipped) := by
  have total := length_writeFramed payload
  rw [List.length_take, total] at room
  have header := PrefixCode.length_bigEndian headerSize payload.length
  have rest : ((bigEndian headerSize payload.length).drop skipped).length =
      headerSize - skipped := by rw [List.length_drop, header]
  have bytes : (((writeFramed payload).take sent).drop skipped).take headerSize =
      (bigEndian headerSize payload.length).drop skipped ++ payload.take skipped := by
    rw [List.drop_take, List.take_take, Nat.min_eq_left (by omega), writeFramed,
      List.drop_append_of_le_length (by omega), List.take_append,
      List.take_of_length_le (by omega), rest, Nat.sub_sub_self inside]
  have width : (payload.take skipped).length = skipped := by
    rw [List.length_take]
    omega
  rw [sizeAt, bytes, PrefixCode.ofBigEndian_append, width, PrefixCode.ofBigEndian_drop]

/-- A size of which the payload's bytes are a part is more than what follows. -/
theorem overlap_large {length skipped front : Nat} (small : length < 2 ^ 32) (started : 0 < skipped)
    (inside : skipped < headerSize) (printable : 32 * 256 ^ (skipped - 1) ≤ front) :
    length < length % 256 ^ (headerSize - skipped) * 256 ^ skipped + front := by
  unfold headerSize at inside ⊢
  interval_cases skipped <;> simp only [Nat.reduceSub, Nat.reducePow] at printable ⊢ <;> omega

theorem front_large (printable : ∀ byte ∈ payload, 0x20 ≤ byte.toNat) {skipped : Nat}
    (started : 0 < skipped) (inside : skipped ≤ payload.length) :
    32 * 256 ^ (skipped - 1) ≤ ofBigEndian (payload.take skipped) := by
  obtain ⟨rest, rfl⟩ := Nat.exists_eq_succ_of_ne_zero started.ne'
  cases payload with
  | nil => simp at inside
  | cons byte bytes =>
      have large := PrefixCode.le_ofBigEndian_cons byte (bytes.take rest)
      have width : (bytes.take rest).length = rest := by
        rw [List.length_take]
        simp only [List.length_cons] at inside
        omega
      rw [width] at large
      calc
        32 * 256 ^ rest ≤ byte.toNat * 256 ^ rest := by
          gcongr
          exact printable byte List.mem_cons_self
        _ ≤ _ := large

/-- Inside a frame, whole or cut off, no other frame fits. -/
theorem not_fits_inside (printable : ∀ byte ∈ payload, 0x20 ≤ byte.toNat)
    (small : payload.length < 2 ^ 32) (short : noise.length < 2 ^ 55) {skipped : Nat}
    (started : 0 < skipped)
    (room : noise.length + skipped + headerSize <
      (noise ++ (writeFramed payload).take sent).length) :
    ¬Fits (noise ++ (writeFramed payload).take sent) (noise.length + skipped) := by
  have total := length_writeFramed payload
  have cut : (noise ++ (writeFramed payload).take sent).length =
      noise.length + min sent (headerSize + payload.length) := by
    rw [List.length_append, List.length_take, total]
  by_cases overlap : skipped < headerSize
  · have inside : skipped ≤ payload.length := by omega
    have place : skipped + headerSize ≤ ((writeFramed payload).take sent).length := by
      rw [List.length_append] at room
      omega
    have large := overlap_large small started overlap (front_large printable started inside)
    intro fits
    unfold Fits at fits
    rw [sizeAt_noise, sizeAt_overlap payload overlap.le place, cut] at fits
    omega
  · have position : skipped - headerSize < payload.length := by omega
    have here : (noise ++ (writeFramed payload).take sent)[noise.length + skipped]? =
        some payload[skipped - headerSize] := by
      rw [List.getElem?_append_right (by omega), Nat.add_sub_cancel_left,
        List.getElem?_take_of_lt (by omega), writeFramed,
        List.getElem?_append_right (by rw [PrefixCode.length_bigEndian]; omega),
        PrefixCode.length_bigEndian, List.getElem?_eq_getElem position]
    have positive := printable _ (List.getElem_mem position)
    exact not_fits_of_pos (by unfold headerSize at cut; omega) room.le here (by omega)

/-- At its own place the frame fits when it is whole. -/
theorem fits_start (noise : Bytes) (small : payload.length < 2 ^ 32)
    (header : headerSize ≤ sent) :
    Fits (noise ++ (writeFramed payload).take sent) noise.length ↔
      (writeFramed payload).length ≤ sent := by
  have start := sizeAt_noise noise ((writeFramed payload).take sent) 0
  have length : payload.length % 256 ^ headerSize = payload.length := by
    apply Nat.mod_eq_of_lt
    unfold headerSize
    omega
  rw [Nat.add_zero, sizeAt_header payload header, length] at start
  rw [Fits, start, List.length_append, List.length_take, length_writeFramed]
  omega

theorem length_output (noise payload : Bytes) (sent : Nat) :
    (noise ++ (writeFramed payload).take sent).length =
      noise.length + min sent (headerSize + payload.length) := by
  rw [List.length_append, List.length_take, length_writeFramed]

/-- Away from the frame's own place no frame fits. -/
theorem not_fits_elsewhere (printable : ∀ byte ∈ payload, 0x20 ≤ byte.toNat)
    (small : payload.length < 2 ^ 32) (text : ∀ byte ∈ noise, byte ≠ 0)
    (short : noise.length < 2 ^ 55) {offset : Nat} (elsewhere : offset ≠ noise.length)
    (room : offset + headerSize < (noise ++ (writeFramed payload).take sent).length) :
    ¬Fits (noise ++ (writeFramed payload).take sent) offset := by
  have length := length_output noise payload sent
  rcases Nat.lt_or_gt_of_ne elsewhere with early | late
  · refine not_fits_noise text ?_ early room.le
    unfold headerSize at length
    omega
  · obtain ⟨skipped, rfl⟩ := Nat.exists_eq_add_of_lt late
    exact not_fits_inside printable small short (Nat.succ_pos skipped) room

theorem parse_whole {Json : Type} {loads : Bytes → Loaded Json} {document : Json}
    (decoded : loads payload = .value document) (printable : ∀ byte ∈ payload, 0x20 ≤ byte.toNat)
    (nonempty : payload ≠ []) (small : payload.length < 2 ^ 32) (text : ∀ byte ∈ noise, byte ≠ 0)
    (short : noise.length < 2 ^ 55) (whole : (writeFramed payload).length ≤ sent) :
    parseFramedResponse loads (noise ++ (writeFramed payload).take sent) = .ok document := by
  have total := length_writeFramed payload
  have length := length_output noise payload sent
  have some_byte : 0 < payload.length := List.length_pos_iff.mpr nonempty
  have start := (fits_start noise small (by omega)).mpr whole
  have found : (noise ++ (writeFramed payload).take sent).drop (noise.length + headerSize) =
      payload := by
    rw [drop_noise, List.take_of_length_le whole, writeFramed,
      List.drop_left' (PrefixCode.length_bigEndian _ _)]
  unfold parseFramedResponse
  rw [if_neg (by omega)]
  by_cases quiet : noise.length = 0
  · rw [quiet] at start found
    rw [if_pos start, ← Nat.zero_add headerSize, found, decoded]
  · have first : ¬Fits (noise ++ (writeFramed payload).take sent) 0 :=
      not_fits_elsewhere printable small text short (Ne.symm quiet) (by omega)
    rw [if_neg first]
    calc
      _ = scanBack loads (noise ++ (writeFramed payload).take sent) (noise.length + 1) := by
          apply scanBack_skip (by omega)
          intro offset late below
          exact not_fits_elsewhere printable small text short (by omega) (by omega)
      _ = .ok document := by
          rw [scanBack, if_pos start, found, decoded]

theorem parse_torn {Json : Type} (loads : Bytes → Loaded Json)
    (printable : ∀ byte ∈ payload, 0x20 ≤ byte.toNat) (small : payload.length < 2 ^ 32)
    (text : ∀ byte ∈ noise, byte ≠ 0) (short : noise.length < 2 ^ 55)
    (cut : sent < (writeFramed payload).length) :
    parseFramedResponse loads (noise ++ (writeFramed payload).take sent) =
      .error (if noise.length + sent < headerSize then .tooShort else .notLocated) := by
  have total := length_writeFramed payload
  have length := length_output noise payload sent
  have size : (noise ++ (writeFramed payload).take sent).length = noise.length + sent := by omega
  have nowhere : ∀ offset,
      offset + headerSize < (noise ++ (writeFramed payload).take sent).length →
        ¬Fits (noise ++ (writeFramed payload).take sent) offset := by
    intro offset room
    by_cases own : offset = noise.length
    · rw [own, fits_start noise small (by omega)]
      omega
    · exact not_fits_elsewhere printable small text short own room
  have front : headerSize ≤ noise.length + sent →
      ¬Fits (noise ++ (writeFramed payload).take sent) 0 := by
    intro enough
    by_cases quiet : noise.length = 0
    · have start := fits_start noise small (by omega : headerSize ≤ sent)
      rw [quiet] at start
      rw [start]
      omega
    · refine not_fits_noise text ?_ (Nat.pos_of_ne_zero quiet) (by omega)
      unfold headerSize at total
      omega
  unfold parseFramedResponse
  rw [size]
  split_ifs with few fits
  · rfl
  · exact absurd fits (front (not_lt.mp few))
  · apply scanBack_none
    intro offset below
    exact nowhere offset (by omega)

end Torn

/-- However much is printed before it, the frame is found when all of it was written, and
a frame that was cut off is no reply. -/
theorem framed_reply_all_or_nothing {Json : Type} (loads : Bytes → Loaded Json)
    {noise payload : Bytes} {document : Json} (decoded : loads payload = .value document)
    (printable : ∀ byte ∈ payload, 0x20 ≤ byte.toNat) (nonempty : payload ≠ [])
    (small : payload.length < 2 ^ 32) (text : ∀ byte ∈ noise, byte ≠ 0)
    (short : noise.length < 2 ^ 55) (sent : Nat) :
    parseFramedResponse loads (noise ++ (writeFramed payload).take sent) =
      if (writeFramed payload).length ≤ sent then .ok document
      else .error (if noise.length + sent < headerSize then .tooShort else .notLocated) := by
  split_ifs with whole few
  · exact parse_whole decoded printable nonempty small text short whole
  · rw [parse_torn loads printable small text short (not_le.mp whole), if_pos few]
  · rw [parse_torn loads printable small text short (not_le.mp whole), if_neg few]

end Gyza.Sandbox

namespace Gyza.Sample

open Sandbox

/-- A reader that takes any text in braces, and what is between them. -/
def bracedText (data : Hex.Bytes) : Loaded Hex.Bytes :=
  if data.head? = some 0x7b ∧ data.getLast? = some 0x7d then .value data else .decodeError

end Gyza.Sample

namespace Gyza.Sandbox

/-- A progress line, and a reply behind it. -/
theorem framed_reply_sample :
    parseFramedResponse Sample.bracedText
      (Hex.utf8 "loading 3/8\n" ++ (writeFramed (Hex.utf8 "\x7b\x7d")).take 10) =
        .ok (Hex.utf8 "\x7b\x7d") := by
  have whole : (writeFramed (Hex.utf8 "\x7b\x7d")).length ≤ 10 := by decide +kernel
  have decoded : Sample.bracedText (Hex.utf8 "\x7b\x7d") = .value (Hex.utf8 "\x7b\x7d") := rfl
  have printable : ∀ byte ∈ Hex.utf8 "\x7b\x7d", 0x20 ≤ byte.toNat := by decide +kernel
  have text : ∀ byte ∈ Hex.utf8 "loading 3/8\n", byte ≠ 0 := by decide +kernel
  have short : (Hex.utf8 "loading 3/8\n").length < 2 ^ 55 := by decide +kernel
  have parsed := framed_reply_all_or_nothing Sample.bracedText decoded printable
    (by decide +kernel) (by decide +kernel) text short 10
  rw [if_pos whole] at parsed
  exact parsed

end Gyza.Sandbox

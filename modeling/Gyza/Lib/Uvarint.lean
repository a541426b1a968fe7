import Mathlib.Tactic

/-! Unsigned varints of 64 bits, as Go's `encoding/binary` writes and reads them.

Seven bits go in a byte, the lowest first, and every byte but the last has its high bit set. A
reader takes ten bytes at most, and of the tenth only the lowest bit. -/

namespace Gyza.Uvarint

abbrev Bytes := List UInt8

def maxVarintLen64 : Nat := 10

inductive VarintError where
  | eof
  | unexpectedEOF
  | overflow
  deriving DecidableEq

/-- `PutUvarint` into a buffer with so much room left. `none` is an index past its end. -/
def putUvarint : Nat → UInt64 → Option Bytes
  | 0, _ => none
  | room + 1, x =>
      if 0x80 ≤ x then (putUvarint room (x >>> 7)).map ((x.toUInt8 ||| 0x80) :: ·)
      else some [x.toUInt8]

/-- The loop of `ReadUvarint` with so many rounds left, `x` read so far. -/
def readRounds : Nat → UInt64 → Nat → Bytes → Except VarintError (UInt64 × Bytes)
  | 0, _, _, _ => .error .overflow
  | _ + 1, _, s, [] => .error (if s = 0 then .eof else .unexpectedEOF)
  | left + 1, x, s, b :: rest =>
      if b < 0x80 then
        if left = 0 ∧ 1 < b then .error .overflow
        else .ok (x ||| b.toUInt64 <<< UInt64.ofNat s, rest)
      else readRounds left (x ||| (b &&& 0x7f).toUInt64 <<< UInt64.ofNat s) (s + 7) rest

def readUvarint (input : Bytes) : Except VarintError (UInt64 × Bytes) :=
  readRounds maxVarintLen64 0 0 input

/-! One byte. -/

/-- Bits above the ones already there are added. -/
theorem toNat_or_shiftLeft {x y : UInt64} {s : Nat} (below : x.toNat < 2 ^ s)
    (fits : y.toNat * 2 ^ s < 2 ^ 64) (place : s < 64) :
    (x ||| y <<< UInt64.ofNat s).toNat = x.toNat + y.toNat * 2 ^ s := by
  have shift : (UInt64.ofNat s).toNat % 64 = s := by
    rw [UInt64.toNat_ofNat']
    omega
  calc
    (x ||| y <<< UInt64.ofNat s).toNat = x.toNat ||| (y.toNat <<< s) % 2 ^ 64 := by
      rw [UInt64.toNat_or, UInt64.toNat_shiftLeft, shift]
    _ = 2 ^ s * y.toNat ||| x.toNat := by
      rw [Nat.shiftLeft_eq, Nat.mod_eq_of_lt fits, Nat.or_comm, Nat.mul_comm]
    _ = x.toNat + y.toNat * 2 ^ s := by
      rw [← Nat.two_pow_add_eq_or_of_lt below, Nat.add_comm, Nat.mul_comm]

theorem toNat_low (b : UInt8) : (b &&& 0x7f).toNat = b.toNat % 128 := by
  rw [UInt8.toNat_and]
  exact Nat.and_two_pow_sub_one_eq_mod b.toNat 7

theorem toNat_marked (b : UInt8) : (b ||| 0x80).toNat = b.toNat % 128 + 128 := by
  have low : (b.toNat ||| 128) % 2 ^ 7 = b.toNat % 128 := by
    rw [Nat.or_mod_two_pow]
    exact Nat.or_zero _
  have high : (b.toNat ||| 128) / 2 ^ 7 = 1 := by
    have top : b.toNat / 2 ^ 7 = 0 ∨ b.toNat / 2 ^ 7 = 1 := by
      have bound := b.toNat_lt
      omega
    rw [Nat.or_div_two_pow]
    rcases top with zero | one
    · rw [zero]
      rfl
    · rw [one]
      rfl
  have split := Nat.div_add_mod (b.toNat ||| 128) (2 ^ 7)
  rw [low, high] at split
  rw [UInt8.toNat_or]
  exact split.symm.trans (by omega)

theorem toNat_shiftRight_seven (x : UInt64) : (x >>> 7).toNat = x.toNat / 128 := by
  rw [UInt64.toNat_shiftRight]
  exact Nat.shiftRight_eq_div_pow x.toNat 7

/-- The low bits of a byte that is not the last. -/
theorem toNat_marked_low (v : UInt64) :
    ((v.toUInt8 ||| 0x80) &&& 0x7f).toUInt64.toNat = v.toNat % 128 := by
  rw [UInt8.toNat_toUInt64, toNat_low, toNat_marked, UInt64.toNat_toUInt8]
  omega

theorem marked_continues (b : UInt8) : ¬(b ||| 0x80) < 0x80 := by
  rw [UInt8.lt_iff_toNat_lt, toNat_marked]
  exact not_lt.mpr (Nat.le_add_left 128 _)

theorem toNat_last {v : UInt64} (small : v.toNat < 128) : v.toUInt8.toNat = v.toNat := by
  rw [UInt64.toNat_toUInt8]
  omega

/-! A whole number. -/

theorem putUvarint_isSome {room : Nat} {x : UInt64} (left : 0 < room)
    (fits : x.toNat < 2 ^ (7 * room)) : ∃ word, putUvarint room x = some word := by
  induction room generalizing x with
  | zero => omega
  | succ room ih =>
      rw [putUvarint]
      split_ifs with more
      · have large : 128 ≤ x.toNat := UInt64.le_iff_toNat_le.mp more
        have wide : 2 ^ (7 * (room + 1)) = 2 ^ (7 * room) * 128 := by
          rw [Nat.mul_succ, pow_add]
          rfl
        have again : 0 < room := by
          by_contra none
          have last : room = 0 := by omega
          rw [last] at fits
          omega
        have rest : (x >>> 7).toNat < 2 ^ (7 * room) := by
          rw [toNat_shiftRight_seven]
          omega
        obtain ⟨word, put⟩ := ih again rest
        exact ⟨_, congrArg (Option.map _) put⟩
      · exact ⟨_, rfl⟩

/-- Ten bytes are room for every number. -/
theorem putUvarint_total (x : UInt64) : ∃ word, putUvarint maxVarintLen64 x = some word :=
  putUvarint_isSome (by decide) (x.toNat_lt.trans (by decide))

theorem length_putUvarint {room : Nat} {x : UInt64} {word : Bytes}
    (put : putUvarint room x = some word) : word.length ≤ room := by
  induction room generalizing x word with
  | zero => cases put
  | succ room ih =>
      rw [putUvarint] at put
      split_ifs at put
      · obtain ⟨others, later, rfl⟩ := Option.map_eq_some_iff.mp put
        rw [List.length_cons]
        exact Nat.succ_le_succ (ih later)
      · cases put
        exact Nat.succ_le_succ (Nat.zero_le room)

/-! More input changes nothing that was decided before. -/

theorem readRounds_append {left s : Nat} {x value : UInt64} {input rest : Bytes} (more : Bytes)
    (read : readRounds left x s input = .ok (value, rest)) :
    readRounds left x s (input ++ more) = .ok (value, rest ++ more) := by
  induction left generalizing x s input with
  | zero => cases read
  | succ left ih =>
      cases input with
      | nil => cases read
      | cons b input =>
          rw [readRounds] at read
          rw [List.cons_append, readRounds]
          split_ifs at read ⊢ with low large
          · cases read
            rfl
          · exact ih read

theorem readRounds_append_overflow {left s : Nat} {x : UInt64} {input : Bytes} (more : Bytes)
    (read : readRounds left x s input = .error .overflow) :
    readRounds left x s (input ++ more) = .error .overflow := by
  induction left generalizing x s input with
  | zero => rfl
  | succ left ih =>
      cases input with
      | nil =>
          rw [readRounds] at read
          split_ifs at read
          · cases read
          · cases read
      | cons b input =>
          rw [readRounds] at read
          rw [List.cons_append, readRounds]
          split_ifs at read ⊢ with low large
          · rfl
          · exact ih read

theorem readUvarint_append {value : UInt64} {input rest : Bytes} (more : Bytes)
    (read : readUvarint input = .ok (value, rest)) :
    readUvarint (input ++ more) = .ok (value, rest ++ more) := readRounds_append more read

theorem readUvarint_append_overflow {input : Bytes} (more : Bytes)
    (read : readUvarint input = .error .overflow) :
    readUvarint (input ++ more) = .error .overflow := readRounds_append_overflow more read

theorem readRounds_last {left s : Nat} {x v : UInt64} (rest : Bytes)
    (rounds : s + 7 * (left + 1) = 70) (below : x.toNat < 2 ^ s)
    (fits : v.toNat * 2 ^ s < 2 ^ 64) (small : v.toNat < 128) :
    ∃ y, readRounds (left + 1) x s (v.toUInt8 :: rest) = .ok (y, rest) ∧
      y.toNat = x.toNat + v.toNat * 2 ^ s := by
  have byte := toNat_last small
  have stops : v.toUInt8 < 0x80 := UInt8.lt_iff_toNat_lt.mpr (byte.trans_lt small)
  have accepted : ¬(left = 0 ∧ 1 < v.toUInt8) := by
    intro refused
    have high : 1 < v.toNat := byte ▸ UInt8.lt_iff_toNat_lt.mp refused.2
    have top : s = 63 := by omega
    rw [top] at fits
    omega
  refine ⟨x ||| v.toUInt8.toUInt64 <<< UInt64.ofNat s, ?_, ?_⟩
  · rw [readRounds, if_pos stops, if_neg accepted]
  · have word : v.toUInt8.toUInt64.toNat = v.toNat := by rw [UInt8.toNat_toUInt64, byte]
    rw [toNat_or_shiftLeft below (by rw [word]; exact fits) (by omega), word]

/-- The loop has read the bits below `s`, and reads the others. -/
theorem readRounds_put {left s : Nat} {x v : UInt64} {word : Bytes} (rest : Bytes)
    (rounds : s + 7 * left = 70) (below : x.toNat < 2 ^ s) (fits : v.toNat * 2 ^ s < 2 ^ 64)
    (put : putUvarint left v = some word) :
    ∃ y, readRounds left x s (word ++ rest) = .ok (y, rest) ∧
      y.toNat = x.toNat + v.toNat * 2 ^ s := by
  induction left generalizing s x v word with
  | zero => cases put
  | succ left ih =>
      rw [putUvarint] at put
      split_ifs at put with more
      · obtain ⟨others, later, rfl⟩ := Option.map_eq_some_iff.mp put
        have halves : v.toNat * 2 ^ s = v.toNat % 128 * 2 ^ s + v.toNat / 128 * 2 ^ (s + 7) := by
          rw [pow_add, ← mul_assoc, mul_right_comm, ← add_mul]
          exact congrArg (· * 2 ^ s) (Nat.mod_add_div' v.toNat 128).symm
        have added : (x ||| ((v.toUInt8 ||| 0x80) &&& 0x7f).toUInt64 <<< UInt64.ofNat s).toNat =
            x.toNat + v.toNat % 128 * 2 ^ s := by
          rw [toNat_or_shiftLeft below (by rw [toNat_marked_low]; omega) (by omega),
            toNat_marked_low]
        have grown : x.toNat + v.toNat % 128 * 2 ^ s < 2 ^ (s + 7) := by
          have digit : v.toNat % 128 ≤ 127 := Nat.le_of_lt_succ (Nat.mod_lt _ (by decide))
          calc
            x.toNat + v.toNat % 128 * 2 ^ s < 2 ^ s + 127 * 2 ^ s :=
              Nat.add_lt_add_of_lt_of_le below (Nat.mul_le_mul_right _ digit)
            _ = 2 ^ (s + 7) := by rw [pow_add]; omega
        obtain ⟨y, read, value⟩ := ih (by omega) (added.trans_lt grown)
          (by rw [toNat_shiftRight_seven]; omega) later
        refine ⟨y, ?_, ?_⟩
        · rw [List.cons_append, readRounds, if_neg (marked_continues v.toUInt8)]
          exact read
        · rw [value, added, toNat_shiftRight_seven]
          omega
      · cases put
        have small : v.toNat < 128 := not_le.mp (UInt64.le_iff_toNat_le.not.mp more)
        exact readRounds_last rest rounds below fits small

theorem readUvarint_put {x : UInt64} {word : Bytes} (rest : Bytes)
    (put : putUvarint maxVarintLen64 x = some word) :
    readUvarint (word ++ rest) = .ok (x, rest) := by
  obtain ⟨y, read, value⟩ := readRounds_put (x := 0) (s := 0) rest rfl (by decide)
    (by simpa using x.toNat_lt) put
  have same : y = x := UInt64.toNat_inj.mp (by simpa using value)
  rw [readUvarint, read, same]

end Gyza.Uvarint

import Gyza.Lib.Hex

/-! Base64 in groups of four digits, the last one padded.

The decoder is strict: it refuses foreign characters and padding anywhere but at
the end. Bits that the last group leaves over are dropped. -/

namespace Gyza.Base64

open Hex (Bytes)

def digitChar (value : Nat) : Char :=
  if value < 26 then Char.ofNat ('A'.toNat + value)
  else if value < 52 then Char.ofNat ('a'.toNat + (value - 26))
  else if value < 62 then Char.ofNat ('0'.toNat + (value - 52))
  else if value = 62 then '+' else '/'

def digitValue (digit : Char) : Option Nat :=
  if 'A' ≤ digit ∧ digit ≤ 'Z' then some (digit.toNat - 'A'.toNat)
  else if 'a' ≤ digit ∧ digit ≤ 'z' then some (digit.toNat - 'a'.toNat + 26)
  else if '0' ≤ digit ∧ digit ≤ '9' then some (digit.toNat - '0'.toNat + 52)
  else if digit = '+' then some 62
  else if digit = '/' then some 63
  else none

def encodeChars : Bytes → List Char
  | [] => []
  | [x] => [digitChar (x.toNat / 4), digitChar (x.toNat % 4 * 16), '=', '=']
  | [x, y] =>
      [digitChar (x.toNat / 4), digitChar (x.toNat % 4 * 16 + y.toNat / 16),
        digitChar (y.toNat % 16 * 4), '=']
  | x :: y :: z :: rest =>
      digitChar (x.toNat / 4) :: digitChar (x.toNat % 4 * 16 + y.toNat / 16) ::
        digitChar (y.toNat % 16 * 4 + z.toNat / 64) :: digitChar (z.toNat % 64) :: encodeChars rest

def encode (bytes : Bytes) : String := String.ofList (encodeChars bytes)

/-- The byte that ends with the upper bits of the second digit. -/
def firstByte (a b : Nat) : UInt8 := UInt8.ofNat (a * 4 + b / 16)

def secondByte (b c : Nat) : UInt8 := UInt8.ofNat (b % 16 * 16 + c / 4)

def thirdByte (c d : Nat) : UInt8 := UInt8.ofNat (c % 4 * 64 + d)

def decodeChars : List Char → Option Bytes
  | [] => some []
  | p :: q :: r :: s :: rest =>
      if s = '=' ∧ rest = [] then do
        let a ← digitValue p
        let b ← digitValue q
        if r = '=' then pure [firstByte a b]
        else do
          let c ← digitValue r
          pure [firstByte a b, secondByte b c]
      else do
        let a ← digitValue p
        let b ← digitValue q
        let c ← digitValue r
        let d ← digitValue s
        let tail ← decodeChars rest
        pure (firstByte a b :: secondByte b c :: thirdByte c d :: tail)
  | _ => none

def decode (text : String) : Option Bytes := decodeChars text.toList

theorem digitValue_digitChar : ∀ value < 64, digitValue (digitChar value) = some value := by
  decide

theorem digitChar_ne_pad : ∀ value < 64, digitChar value ≠ '=' := by
  decide

section Bytes

variable (x y z : UInt8)

theorem firstByte_split (low : Nat) (bound : low < 16) :
    firstByte (x.toNat / 4) (x.toNat % 4 * 16 + low) = x := by
  have whole : x.toNat / 4 * 4 + (x.toNat % 4 * 16 + low) / 16 = x.toNat := by omega
  rw [firstByte, whole, UInt8.ofNat_toNat]

theorem secondByte_split (high low : Nat) (bound : low < 4) :
    secondByte (high * 16 + y.toNat / 16) (y.toNat % 16 * 4 + low) = y := by
  have small : y.toNat < 256 := y.toNat_lt
  have whole : (high * 16 + y.toNat / 16) % 16 * 16 + (y.toNat % 16 * 4 + low) / 4 = y.toNat := by
    omega
  rw [secondByte, whole, UInt8.ofNat_toNat]

theorem thirdByte_split (high : Nat) :
    thirdByte (high * 4 + z.toNat / 64) (z.toNat % 64) = z := by
  have small : z.toNat < 256 := z.toNat_lt
  have whole : (high * 4 + z.toNat / 64) % 4 * 64 + z.toNat % 64 = z.toNat := by omega
  rw [thirdByte, whole, UInt8.ofNat_toNat]

end Bytes

theorem decodeChars_encodeChars (bytes : Bytes) : decodeChars (encodeChars bytes) = some bytes := by
  induction bytes using encodeChars.induct with
  | case1 => rfl
  | case2 x =>
      have small : x.toNat < 256 := x.toNat_lt
      have first := firstByte_split x 0 (by omega)
      simp only [encodeChars, decodeChars, digitValue_digitChar (x.toNat / 4) (by omega),
        digitValue_digitChar (x.toNat % 4 * 16) (by omega)]
      simpa using first
  | case3 x y =>
      have small : x.toNat < 256 := x.toNat_lt
      have small' : y.toNat < 256 := y.toNat_lt
      have unpadded := digitChar_ne_pad (y.toNat % 16 * 4) (by omega)
      have first := firstByte_split x (y.toNat / 16) (by omega)
      have second := secondByte_split y (x.toNat % 4) 0 (by omega)
      simp only [encodeChars, decodeChars, digitValue_digitChar (x.toNat / 4) (by omega),
        digitValue_digitChar (x.toNat % 4 * 16 + y.toNat / 16) (by omega),
        digitValue_digitChar (y.toNat % 16 * 4) (by omega), unpadded]
      simpa using ⟨first, second⟩
  | case4 x y z rest ih =>
      have small : x.toNat < 256 := x.toNat_lt
      have small' : y.toNat < 256 := y.toNat_lt
      have small'' : z.toNat < 256 := z.toNat_lt
      have unpadded := digitChar_ne_pad (z.toNat % 64) (by omega)
      have first := firstByte_split x (y.toNat / 16) (by omega)
      have second := secondByte_split y (x.toNat % 4) (z.toNat / 64) (by omega)
      have third := thirdByte_split z (y.toNat % 16)
      simp only [encodeChars, decodeChars, digitValue_digitChar (x.toNat / 4) (by omega),
        digitValue_digitChar (x.toNat % 4 * 16 + y.toNat / 16) (by omega),
        digitValue_digitChar (y.toNat % 16 * 4 + z.toNat / 64) (by omega),
        digitValue_digitChar (z.toNat % 64) (by omega), unpadded, ih]
      simpa using ⟨first, second, third⟩

theorem decode_encode (bytes : Bytes) : decode (encode bytes) = some bytes := by
  simp only [decode, encode, String.toList_ofList]
  exact decodeChars_encodeChars bytes

end Gyza.Base64

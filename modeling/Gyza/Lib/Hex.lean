import Mathlib.Data.String.Basic
import Mathlib.Tactic

/-! Byte strings, their UTF-8 and hexadecimal spellings.

Two decoders are kept apart because the languages differ: the lenient one
skips ASCII whitespace between digit pairs, the strict one does not. Both
accept either letter case, so neither is injective. -/

namespace Gyza.Hex

abbrev Bytes := List UInt8

def utf8 (text : String) : Bytes := text.toList.flatMap String.utf8EncodeChar

theorem utf8_toByteArray (text : String) : (utf8 text).toByteArray = text.toByteArray := by
  rw [← String.utf8Encode_toList]
  rfl

theorem utf8_injective : Function.Injective utf8 := by
  intro left right same
  have bytes : left.toByteArray = right.toByteArray := by
    rw [← utf8_toByteArray left, ← utf8_toByteArray right, same]
  cases left
  cases right
  cases bytes
  rfl

def digitValue (digit : Char) : Option Nat :=
  if '0' ≤ digit ∧ digit ≤ '9' then some (digit.toNat - '0'.toNat)
  else if 'a' ≤ digit ∧ digit ≤ 'f' then some (digit.toNat - 'a'.toNat + 10)
  else if 'A' ≤ digit ∧ digit ≤ 'F' then some (digit.toNat - 'A'.toNat + 10)
  else none

def pairValue (high low : Char) : Option UInt8 := do
  let top ← digitValue high
  let bottom ← digitValue low
  pure (UInt8.ofNat (16 * top + bottom))

def isSpace (c : Char) : Bool :=
  c = ' ' ∨ c = '\t' ∨ c = '\n' ∨ c = '\x0b' ∨ c = '\x0c' ∨ c = '\r'

/-- Digit pairs only: odd lengths and foreign characters are refused. -/
def decodeChars : List Char → Option Bytes
  | [] => some []
  | [_] => none
  | high :: low :: rest => do
      let byte ← pairValue high low
      let tail ← decodeChars rest
      pure (byte :: tail)

def decode (text : String) : Option Bytes := decodeChars text.toList

/-- Whitespace may stand before any pair and at the end, never inside a pair. -/
def fromhexChars : List Char → Option Bytes
  | [] => some []
  | [last] => if isSpace last then some [] else none
  | high :: low :: rest =>
      if isSpace high then fromhexChars (low :: rest)
      else do
        let byte ← pairValue high low
        let tail ← fromhexChars rest
        pure (byte :: tail)

def fromhex (text : String) : Option Bytes := fromhexChars text.toList

def digitChar (value : Nat) : Char :=
  if value < 10 then Char.ofNat ('0'.toNat + value) else Char.ofNat ('a'.toNat + (value - 10))

def encodeChars (bytes : Bytes) : List Char :=
  bytes.flatMap (fun byte => [digitChar (byte.toNat / 16), digitChar (byte.toNat % 16)])

def encode (bytes : Bytes) : String := String.ofList (encodeChars bytes)

theorem digitValue_digitChar : ∀ value < 16, digitValue (digitChar value) = some value := by
  decide

private theorem digitChar_not_space : ∀ value < 16, isSpace (digitChar value) = false := by
  decide

private theorem pairValue_digitChar (byte : UInt8) :
    pairValue (digitChar (byte.toNat / 16)) (digitChar (byte.toNat % 16)) = some byte := by
  have bound : byte.toNat < 256 := byte.toNat_lt
  have halves : 16 * (byte.toNat / 16) + byte.toNat % 16 = byte.toNat := by omega
  simp only [pairValue, digitValue_digitChar _ (show byte.toNat / 16 < 16 by omega),
    digitValue_digitChar _ (show byte.toNat % 16 < 16 by omega), Option.bind_eq_bind,
    Option.bind_some, Option.pure_def, halves, UInt8.ofNat_toNat]

theorem fromhex_encode (bytes : Bytes) : fromhex (encode bytes) = some bytes := by
  simp only [fromhex, encode, String.toList_ofList]
  induction bytes with
  | nil => rfl
  | cons byte rest ih =>
      have bound : byte.toNat < 256 := byte.toNat_lt
      have visible := digitChar_not_space (byte.toNat / 16) (by omega)
      change fromhexChars (digitChar (byte.toNat / 16) :: digitChar (byte.toNat % 16) ::
        encodeChars rest) = some (byte :: rest)
      simp only [fromhexChars, visible, Bool.false_eq_true, if_false, pairValue_digitChar, ih,
        Option.bind_eq_bind, Option.bind_some, Option.pure_def]

theorem decode_encode (bytes : Bytes) : decode (encode bytes) = some bytes := by
  simp only [decode, encode, String.toList_ofList]
  induction bytes with
  | nil => rfl
  | cons byte rest ih =>
      change decodeChars (digitChar (byte.toNat / 16) :: digitChar (byte.toNat % 16) ::
        encodeChars rest) = some (byte :: rest)
      simp only [decodeChars, pairValue_digitChar, ih, Option.bind_eq_bind, Option.bind_some,
        Option.pure_def]

private theorem digitValue_space (digit : Char) (space : isSpace digit = true) :
    digitValue digit = none := by
  simp only [isSpace, decide_eq_true_eq] at space
  rcases space with rfl | rfl | rfl | rfl | rfl | rfl <;> rfl

private theorem pairValue_space (high low : Char) (space : (isSpace high || isSpace low) = true) :
    pairValue high low = none := by
  rw [Bool.or_eq_true] at space
  rcases space with first | second
  · simp [pairValue, digitValue_space high first]
  · simp [pairValue, digitValue_space low second]

/-- The strict decoder is the lenient one on texts without whitespace. -/
theorem decodeChars_eq (chars : List Char) :
    decodeChars chars = if chars.any isSpace then none else fromhexChars chars := by
  induction chars using decodeChars.induct with
  | case1 => rfl
  | case2 last =>
      by_cases space : isSpace last = true
      · simp [decodeChars, space]
      · simp [decodeChars, fromhexChars, space]
  | case3 high low rest ih =>
      rw [decodeChars, ih, List.any_cons, List.any_cons, ← Bool.or_assoc]
      by_cases space : (isSpace high || isSpace low) = true
      · simp [pairValue_space high low space, space]
      · have first : isSpace high = false := by simp at space; exact space.1
        simp only [Bool.not_eq_true] at space
        rw [space, Bool.false_or]
        split_ifs with spaced
        · cases pairValue high low with
          | none => rfl
          | some byte => rfl
        · simp [fromhexChars, first]

theorem decode_eq (text : String) :
    decode text = if text.toList.any isSpace then none else fromhex text :=
  decodeChars_eq text.toList

/-- The lenient decoder skips a space in front. -/
theorem fromhex_space (text : String) : fromhex (" " ++ text) = fromhex text := by
  have chars : (" " ++ text).toList = ' ' :: text.toList := by
    rw [String.toList_append]
    rfl
  rw [fromhex, fromhex, chars]
  cases text.toList with
  | nil => rfl
  | cons first rest => rfl

theorem encode_unspaced (bytes : Bytes) : (encode bytes).toList.any isSpace = false := by
  rw [encode, String.toList_ofList, encodeChars]
  induction bytes with
  | nil => rfl
  | cons byte rest ih =>
      have bound : byte.toNat < 256 := byte.toNat_lt
      simp only [List.flatMap_cons, List.any_append, List.any_cons, List.any_nil, ih,
        digitChar_not_space _ (show byte.toNat / 16 < 16 by omega),
        digitChar_not_space _ (show byte.toNat % 16 < 16 by omega), Bool.or_self]

theorem encode_injective : Function.Injective encode := by
  intro left right same
  have decoded := congrArg fromhex same
  rw [fromhex_encode, fromhex_encode] at decoded
  exact Option.some.inj decoded

theorem encode_ne_empty (bytes : Bytes) (nonempty : bytes ≠ []) : encode bytes ≠ "" := by
  intro empty
  have blank : encode bytes = encode [] := empty
  exact nonempty (encode_injective blank)

end Gyza.Hex

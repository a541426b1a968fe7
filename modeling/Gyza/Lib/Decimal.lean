import Mathlib

/-! Six-place decimal rendering of binary64 values, and exact integers as floats.

The arithmetic is that of the kernel's own `Float` model. Rendering rounds the
exact binary value half to even, the rule of correctly rounded `printf`. -/

namespace Gyza.Decimal

open Float.Model (Format UnpackedFloat)
open Float.Model.UnpackedFloat (Sign packComponents unpackSign)

def roundHalfEven (numerator denominator : Nat) : Nat :=
  let quotient := numerator / denominator
  let twice := 2 * (numerator % denominator)
  if twice < denominator then quotient
  else if denominator < twice then quotient + 1
  else quotient + quotient % 2

/-- Millionths of `mantissa * 2 ^ exponent`, rounded to an integer. -/
def millionths (mantissa : Nat) (exponent : Int) : Nat :=
  if 0 ≤ exponent then mantissa * 2 ^ exponent.toNat * 1000000
  else roundHalfEven (mantissa * 1000000) (2 ^ (-exponent).toNat)

def sixDigits (value : Nat) : List Char :=
  [100000, 10000, 1000, 100, 10, 1].map (fun place => Nat.digitChar (value / place % 10))

def renderMillionths (total : Nat) : List Char :=
  Nat.toDigits 10 (total / 1000000) ++ '.' :: sixDigits (total % 1000000)

def signChars : Sign → List Char
  | .negative => ['-']
  | .positive => []

def renderChars : UnpackedFloat → List Char
  | .notANumber => ['n', 'a', 'n']
  | .infinity sign => signChars sign ++ ['i', 'n', 'f']
  | .zero sign => signChars sign ++ renderMillionths 0
  | .finite sign mantissa exponent _ =>
      signChars sign ++ renderMillionths (millionths mantissa exponent)

/-- `format(value, ".6f")`. -/
def fixed6 (value : Float) : String := String.ofList (renderChars value.toModel.unpack)

/-- The float an integer converts to; integers past the largest float have none. -/
def floatOfInt (value : Int) : Option Float :=
  let rounded := Float.ofModel (Float.Model.ofInt value)
  if rounded.isFinite then some rounded else none

private theorem digitChar_ne_bar : ∀ digit < 10, Nat.digitChar digit ≠ '|' := by decide

private theorem sixDigits_no_bar (value : Nat) : '|' ∉ sixDigits value := by
  intro member
  rcases List.mem_map.mp member with ⟨place, _, same⟩
  exact digitChar_ne_bar (value / place % 10) (Nat.mod_lt _ (by decide)) same

private theorem renderMillionths_no_bar (total : Nat) : '|' ∉ renderMillionths total := by
  intro member
  rcases List.mem_append.mp member with whole | fraction
  · have digit := Nat.isDigit_of_mem_toDigits (by decide) (by decide) whole
    exact absurd digit (by decide)
  · rcases List.mem_cons.mp fraction with point | digits
    · exact absurd point (by decide)
    · exact sixDigits_no_bar _ digits

private theorem signChars_no_bar (sign : Sign) : '|' ∉ signChars sign := by
  cases sign <;> decide

theorem fixed6_no_bar (value : Float) : '|' ∉ (fixed6 value).toList := by
  simp only [fixed6, String.toList_ofList]
  cases value.toModel.unpack with
  | notANumber => decide
  | infinity sign =>
      intro member
      rcases List.mem_append.mp member with front | back
      · exact signChars_no_bar sign front
      · exact absurd back (by decide)
  | zero sign =>
      intro member
      rcases List.mem_append.mp member with front | back
      · exact signChars_no_bar sign front
      · exact renderMillionths_no_bar 0 back
  | finite sign mantissa exponent positive =>
      intro member
      rcases List.mem_append.mp member with front | back
      · exact signChars_no_bar sign front
      · exact renderMillionths_no_bar _ back

/-- The sign written into a packed float is the sign read back from it. -/
private theorem unpackSign_packComponents {spec : Format} {sign : Sign}
    {exponent : BitVec spec.exponentBits} {mantissa : BitVec spec.mantissaBitsWithoutImplicit} :
    unpackSign (packComponents spec sign exponent mantissa) = sign.toBitVec := by
  apply BitVec.eq_of_getLsbD_eq
  intro index bound
  have first : index = 0 := by omega
  subst first
  simp [unpackSign, packComponents, BitVec.getLsbD_append, BitVec.getElem_append]

def signOf : UnpackedFloat → Option Sign
  | .notANumber => none
  | .infinity sign => some sign
  | .zero sign => some sign
  | .finite sign _ _ _ => some sign

private theorem signOf_unpack_positive {spec : Format} {exponent : BitVec spec.exponentBits}
    {mantissa : BitVec spec.mantissaBitsWithoutImplicit} :
    signOf (UnpackedFloat.unpack spec (packComponents spec .positive exponent mantissa)) = some .positive ∨
      UnpackedFloat.unpack spec (packComponents spec .positive exponent mantissa) = .notANumber := by
  have sign : Sign.ofBitVec (unpackSign (packComponents spec .positive exponent mantissa)) =
      .positive := by
    rw [unpackSign_packComponents]
    rfl
  simp only [UnpackedFloat.unpack, sign]
  split_ifs <;> simp [signOf]

private theorem signOf_unpack_pack {spec : Format} (value : UnpackedFloat)
    (positive : signOf value = some .positive) :
    signOf (UnpackedFloat.unpack spec (UnpackedFloat.pack spec value)) = some .positive ∨
      UnpackedFloat.unpack spec (UnpackedFloat.pack spec value) = .notANumber := by
  cases value with
  | notANumber => simp [signOf] at positive
  | infinity sign =>
      obtain rfl : sign = .positive := by simpa [signOf] using positive
      exact signOf_unpack_positive
  | zero sign =>
      obtain rfl : sign = .positive := by simpa [signOf] using positive
      exact signOf_unpack_positive
  | finite sign mantissa exponent above =>
      obtain rfl : sign = .positive := by simpa [signOf] using positive
      simp only [UnpackedFloat.pack]
      split_ifs <;> exact signOf_unpack_positive

private theorem signOf_round (spec : Format) (mantissa : Nat) (exponent : Int) :
    signOf (UnpackedFloat.round spec .positive mantissa exponent) = some .positive := by
  simp only [UnpackedFloat.round, UnpackedFloat.roundWithAccuracy]
  split_ifs <;> rfl

private theorem signOf_ofInt (spec : Format) (value : Int) (nonnegative : 0 ≤ value) :
    signOf (UnpackedFloat.ofInt spec value) = some .positive := by
  simp only [UnpackedFloat.ofInt, UnpackedFloat.normalize]
  cases order : compare value 0 with
  | lt =>
      have below : value < 0 := compare_lt_iff_lt.mp order
      omega
  | eq => rfl
  | gt => exact signOf_round _ _ _

private theorem zero_le_of_signOf (value : UnpackedFloat)
    (positive : signOf value = some .positive) :
    (UnpackedFloat.zero .positive).le value = true := by
  cases value with
  | notANumber => simp [signOf] at positive
  | infinity sign =>
      obtain rfl : sign = .positive := by simpa [signOf] using positive
      rfl
  | zero sign => rfl
  | finite sign mantissa exponent above =>
      obtain rfl : sign = .positive := by simpa [signOf] using positive
      rfl

theorem floatOfInt_finite (value : Int) (rounded : Float)
    (converted : floatOfInt value = some rounded) : rounded.isFinite = true := by
  simp only [floatOfInt] at converted
  split at converted
  · rename_i finite
    cases converted
    exact finite
  · cases converted

private theorem unpack_ofInt_signOf (value : Int) (nonnegative : 0 ≤ value)
    (finite : (Float.Model.ofInt value).unpack.isFinite = true) :
    signOf (Float.Model.ofInt value).unpack = some .positive := by
  rcases @signOf_unpack_pack Format.binary64 _
    (signOf_ofInt Format.binary64 value nonnegative) with sign | notNumber
  · exact sign
  · change (UnpackedFloat.unpack Format.binary64 (UnpackedFloat.pack Format.binary64
      (UnpackedFloat.ofInt Format.binary64 value))).isFinite = true at finite
    rw [notNumber] at finite
    cases finite

/-- A natural number converts to a float that is not below zero. -/
theorem floatOfInt_nonnegative (value : Int) (rounded : Float) (nonnegative : 0 ≤ value)
    (converted : floatOfInt value = some rounded) : (0 : Float) ≤ rounded := by
  have finite := floatOfInt_finite value rounded converted
  simp only [floatOfInt] at converted
  split at converted
  · cases converted
    have zero : (0 : Float).toModel.unpack = .zero .positive := by rfl
    have below : (0 : Float).toModel.unpack.le (Float.Model.ofInt value).unpack = true := by
      rw [zero]
      exact zero_le_of_signOf _ (unpack_ofInt_signOf value nonnegative finite)
    exact decide_eq_true below
  · cases converted

end Gyza.Decimal

import Gyza.Lib.CanonJson

/-! Python's finite numbers: exact integers, and floats of an abstract type with
their rational values. -/

namespace Gyza.PyNumber

open CanonJson (Doc FloatText)

/-- Finite floats: how they are written, and what they are worth. -/
structure FloatFormat (φ : Type) extends FloatText φ where
  value : φ → ℚ
  /-- `float(n)`; `none` is an `OverflowError`. -/
  ofInt : Int → Option φ

inductive Number (φ : Type) where
  | int (value : Int)
  | float (value : φ)
  deriving DecidableEq

namespace Number

variable {φ : Type}

def toDoc : Number φ → Doc φ
  | .int value => .int value
  | .float value => .float value

/-- `float(number)`. -/
def toFloat (format : FloatFormat φ) : Number φ → Option φ
  | .int value => format.ofInt value
  | .float value => some value

/-- The number itself, before any rounding. -/
def exactValue (format : FloatFormat φ) : Number φ → ℚ
  | .int value => value
  | .float value => format.value value

end Number

/-- Whole floats, worth what they say. -/
def wholeFormat : FloatFormat Int where
  toFloatText := CanonJson.wholeFloats
  value value := value
  ofInt value := some value

end Gyza.PyNumber

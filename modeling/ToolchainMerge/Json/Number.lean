import ToolchainMerge.Json.Basic
import ToolchainMerge.Text.Decimal

/-!
# Values of numbers

A number without fraction and exponent is an integer if it fits into 64 bits, as a signed or
as an unsigned number.  Everything else, `-0` included, is a floating-point number, computed
from a 64-bit significand and a power of ten; digits that the significand has no room for
only count towards the exponent.  A number too large for a double has no value.
-/

namespace ToolchainMerge.Json.Number

/-- The value of a number: an integer, or a double for everything that is none. -/
inductive Value where
  | integer (value : Int)
  | float (value : Float)

/-- The first number that a significand cannot hold. -/
def significandBound : Nat := 0x10000000000000000

/-- The magnitude of the least integer of 64 bits. -/
def signedBound : Nat := 0x8000000000000000

/-- The first number that an exponent cannot hold. -/
def exponentBound : Nat := 0x80000000

/-- Reads digits behind `value` while the number stays below `bound`; returns it with the
digits that are left. -/
def readDigits (bound value : Nat) : List Nat → Nat × List Nat
  | [] => (value, [])
  | digit :: digits =>
      if value * 10 + digit < bound then readDigits bound (value * 10 + digit) digits
      else (value, digit :: digits)

/-- `10 ^ exponent` rounded to a double. -/
def powerOfTen (exponent : Nat) : Float :=
  Float.ofScientific 1 false exponent

/-- `value · 10 ^ exponent` in steps that doubles can make; `none` beyond the largest double.
A value smaller than all doubles becomes zero. -/
def scale (value : Float) (exponent : Int) : Option Float :=
  if exponent.natAbs ≤ 308 then
    if 0 ≤ exponent then
      let scaled := value * powerOfTen exponent.natAbs
      if scaled.isInf then none else some scaled
    else some (value / powerOfTen exponent.natAbs)
  else if value == 0 then some value
  else if 0 ≤ exponent then none
  else scale (value / powerOfTen 308) (exponent + 308)
termination_by exponent.natAbs
decreasing_by omega

/-- A double with the sign of the number. -/
def signed (number : Number) (value : Float) : Value :=
  .float (if number.negative then -value else value)

/-- The floating-point value of a significand whose last digit stands at `place`. -/
def floatValue? (number : Number) (significand : Nat) (place : Int) : Option Value :=
  let (exponent, rest) := readDigits exponentBound 0 number.exponent
  if rest.isEmpty then
    let exponent := if number.negativeExponent then place - exponent else place + exponent
    (scale significand.toUInt64.toFloat exponent).map number.signed
  else if significand ≠ 0 ∧ ¬number.negativeExponent then none
  else some (number.signed 0)

/-- The value of a number; `none` if it is out of range. -/
def value? (number : Number) : Option Value :=
  let (whole, rest) := readDigits significandBound 0 number.whole
  if rest.isEmpty ∧ number.fraction.isEmpty ∧ number.exponent.isEmpty then
    if ¬number.negative then some (.integer whole)
    else if whole = 0 ∨ signedBound < whole then some (number.signed whole.toUInt64.toFloat)
    else some (.integer (-whole))
  else
    let (significand, unread) := readDigits significandBound whole number.fraction
    number.floatValue? significand (rest.length - (number.fraction.length - unread.length : Nat))

end ToolchainMerge.Json.Number

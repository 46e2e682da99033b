/-!
# Decimal texts of binary numbers

A binary floating-point number `significand · 2 ^ exponent` stands for all reals that are
rounded to it.  Its decimal text has the fewest digits with which some such real can be
written, and of these the one nearest to the number itself.

Everything here is exact arithmetic of natural numbers.  A positive rational is a pair of
numerator and denominator.
-/

namespace ToolchainMerge.Text.Decimal

/-- The first significand of 53 bits. -/
def leadingBit : Nat := 0x10000000000000

/-- The number of exponents of a double. -/
def exponentCount : Nat := 0x800

/-- The weight of the sign bit of a double. -/
def signBit : Nat := 0x8000000000000000

/-- `base ^ exponent` as a fraction. -/
def power (base : Nat) : Int → Nat × Nat
  | .ofNat exponent => (base.pow exponent, 1)
  | .negSucc exponent => (1, base.pow (exponent + 1))

/-- A positive binary number: `value`, and the bounds `low` and `high` of the reals that are
rounded to it, all in units of `2 ^ unit`.  The bounds belong to these reals if `closed`. -/
structure Binary where
  value : Nat
  low : Nat
  high : Nat
  unit : Int
  closed : Bool
deriving Repr

/-- The number of a significand of 53 bits and an exponent, in quarters of the last bit.  At
a power of two the lower neighbour is only half as far away. -/
def Binary.ofParts (significand : Nat) (exponent : Int) (lowest : Bool) : Binary where
  value := 4 * significand
  low := 4 * significand - if significand = leadingBit ∧ ¬lowest then 1 else 2
  high := 4 * significand + 2
  unit := exponent - 2
  closed := significand % 2 == 0

/-- The number of a positive finite double by its bits. -/
def Binary.ofBits (bits : Nat) : Binary :=
  let fraction : Nat := bits % leadingBit
  let exponent : Nat := bits / leadingBit % exponentCount
  if exponent = 0 then .ofParts fraction (-1074) true
  else .ofParts (leadingBit + fraction) (exponent - 1075) (exponent = 1)

/-- The largest `e` with `10 ^ e` at most the value of the number. -/
def Binary.magnitude (number : Binary) : Int :=
  let (numerator, denominator) := power 2 number.unit
  let scaled := number.value * numerator
  if denominator ≤ scaled then ((Nat.toDigits 10 (scaled / denominator)).length : Int) - 1
  else
    match (List.range 400).find? fun shift => denominator ≤ scaled * Nat.pow 10 shift with
    | some shift => -shift
    | none => 0

/-- The multiple of `10 ^ place` nearest to the number among those rounded to it, if there
is one.  A tie goes to the even multiple. -/
def Binary.nearest? (number : Binary) (place : Int) : Option Nat :=
  let (numerator, denominator) := power 2 number.unit
  let (up, down) := power 10 place
  -- multiples are compared in units of `1 / (denominator * down)`
  let value := number.value * numerator * down
  let low := number.low * numerator * down
  let high := number.high * numerator * down
  let step := up * denominator
  let below := value / step
  let within (multiple : Nat) : Bool :=
    let point := multiple * step
    if number.closed then low ≤ point && point ≤ high else low < point && point < high
  match within below, within (below + 1) with
  | false, false => none
  | true, false => some below
  | false, true => some (below + 1)
  | true, true =>
      let before := value - below * step
      let after := (below + 1) * step - value
      if before < after ∨ (before = after ∧ below % 2 = 0) then some below else some (below + 1)

/-- The shortest decimal of a number: its digits and the place of the last one. -/
def Binary.shortest (number : Binary) : Nat × Int :=
  let magnitude := number.magnitude
  ((List.range 18).findSome? fun (count : Nat) =>
      let place := magnitude - count
      (number.nearest? place).map fun multiple => (multiple, place)).getD (0, 0)

/-- How an exponent is written: always with its sign. -/
def writeExponent (magnitude : Int) : List Char :=
  (if 0 ≤ magnitude then ['e', '+'] else ['e', '-']) ++ Nat.toDigits 10 magnitude.natAbs

/-- How numbers are written: positionally where the first digit stands between five places
behind the point and sixteen before it, and with an exponent elsewhere. -/
def write (digits : List Char) (magnitude : Int) : List Char :=
  if 0 ≤ magnitude ∧ magnitude ≤ 15 then
    let whole := magnitude.toNat + 1
    let zeros := List.replicate (whole - digits.length) '0'
    let fraction := digits.drop whole
    digits.take whole ++ zeros ++ '.' :: if fraction.isEmpty then ['0'] else fraction
  else if -5 ≤ magnitude ∧ magnitude < 0 then
    ['0', '.'] ++ List.replicate ((-magnitude).toNat - 1) '0' ++ digits
  else
    let fraction := digits.drop 1
    digits.take 1 ++ (if fraction.isEmpty then [] else '.' :: fraction) ++ writeExponent magnitude

/-- A double as the shortest decimal that is rounded to it. -/
def ofFloat (value : Float) : String :=
  let bits := value.toBits.toNat
  let sign := if bits < signBit then "" else "-"
  let bits := bits % signBit
  if bits = 0 then sign ++ "0.0"
  else
    let (multiple, place) := (Binary.ofBits bits).shortest
    let digits := Nat.toDigits 10 multiple
    let magnitude := place + digits.length - 1
    let significant := (digits.reverse.dropWhile (· = '0')).reverse
    sign ++ String.ofList (write significant magnitude)

end ToolchainMerge.Text.Decimal

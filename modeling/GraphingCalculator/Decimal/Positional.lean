import GraphingCalculator.Text.Basic
import GraphingCalculator.Decimal.Shortest

/-!
# Positional notation

Numbers are shown by their shortest decimal, always in positional notation:
no exponent however large or small the number, no point after a whole number,
and a minus sign on the negative zero.
-/

namespace GraphingCalculator

namespace Decimal

/-- The decimal digits of a natural number. -/
def digitsOf (number : Nat) : Text :=
  Nat.toDigits 10 number

/-- A decimal without exponent. -/
def positional (decimal : Decimal) : Text :=
  let digits := digitsOf decimal.digits
  if 0 ≤ decimal.power then
    digits ++ List.replicate decimal.power.toNat '0'
  else
    let places := (-decimal.power).toNat
    let padded := List.replicate (places + 1 - digits.length) '0' ++ digits
    padded.take (padded.length - places) ++
      '.' :: padded.drop (padded.length - places)

end Decimal

/-- The parts of a binary floating-point number. -/
inductive FloatClass
  | notANumber
  | infinite (negative : Bool)
  | zero (negative : Bool)
  | nonzero (negative : Bool) (magnitude : Dyadic)

/-- Take the bits of a number apart: a sign, eleven bits of exponent and
fifty-two of fraction. -/
def FloatClass.ofFloat (number : Float) : FloatClass :=
  let bits := number.toBits
  let negative := bits >>> 63 == 1
  let biased := (bits >>> 52 &&& 0x7FF).toNat
  let fraction := (bits &&& 0xFFFFFFFFFFFFF).toNat
  if number.isNaN then .notANumber
  else if biased = 0x7FF then .infinite negative
  else if biased = 0 then
    if fraction = 0 then .zero negative
    else .nonzero negative ⟨fraction, -1074, false⟩
  else
    .nonzero negative
      ⟨fraction + 0x10000000000000, biased - 1075,
        fraction = 0 && 1 < biased⟩

/-- The text that shows a number. -/
def showNumber (number : Float) : Text :=
  let signed (negative : Bool) (text : Text) : Text :=
    if negative then '-' :: text else text
  match FloatClass.ofFloat number with
  | .notANumber => "NaN".toList
  | .infinite negative => signed negative "inf".toList
  | .zero negative => signed negative ['0']
  | .nonzero negative magnitude =>
      signed negative magnitude.shortest.positional

end GraphingCalculator

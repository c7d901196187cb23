import GraphingCalculator.Text.Basic

/-!
# Numerals

A numeral has an optional sign, digits with an optional point, and an optional
exponent; or it names an infinity or the number that is none, in any case of
the letters.  Its value is the nearest floating-point number, whatever the
number of digits.
-/

namespace GraphingCalculator
namespace Numeral

/-- The value of a row of decimal digits. -/
def naturalOfDigits (digits : Text) : Nat :=
  digits.foldl (fun value digit => 10 * value + (digit.toNat - '0'.toNat)) 0

/-- The digits at the start of a text, and what follows them. -/
def splitDigits (text : Text) : Text × Text :=
  (text.takeWhile Char.isDigit, text.dropWhile Char.isDigit)

/-- Read a sign, and tell whether it is a minus. -/
def splitSign : Text → Bool × Text
  | '-' :: rest => (true, rest)
  | '+' :: rest => (false, rest)
  | text => (false, text)

/-- Read the exponent that closes a numeral: nothing, or a letter followed by
a whole number. -/
def exponent? : Text → Option Int
  | [] => some 0
  | mark :: rest =>
      let (negative, digits) := splitSign rest
      if (mark == 'e' || mark == 'E') && !digits.isEmpty &&
          digits.all Char.isDigit then
        let size : Int := naturalOfDigits digits
        some (if negative then -size else size)
      else none

/-- The positive infinity. -/
def infinity : Float := 1 / 0

/-- The floating-point number nearest to `coefficient * 10 ^ exponent`.
Numbers far outside the range of floating-point numbers are told apart by the
position of their first digit. -/
def nearestFloat (coefficient : Nat) (exponent : Int) : Float :=
  let firstPlace := exponent + (Nat.toDigits 10 coefficient).length
  if coefficient = 0 || firstPlace < -400 then 0
  else if 400 < firstPlace then infinity
  else Float.ofScientific coefficient (exponent < 0) exponent.natAbs

/-- Read digits with an optional point and exponent. -/
def decimal? (text : Text) : Option Float :=
  let (whole, afterWhole) := splitDigits text
  let (fraction, afterFraction) :=
    match afterWhole with
    | '.' :: afterPoint => splitDigits afterPoint
    | _ => ([], afterWhole)
  if whole.isEmpty && fraction.isEmpty then none
  else
    (exponent? afterFraction).map fun exponent =>
      nearestFloat (naturalOfDigits (whole ++ fraction))
        (exponent - fraction.length)

/-- Read a numeral without its sign. -/
def magnitude? (text : Text) : Option Float :=
  let letters := text.map Char.toLower
  if letters = "inf".toList || letters = "infinity".toList then
    some infinity
  else if letters = "nan".toList then some (0 / 0)
  else decimal? text

/-- Read a numeral. -/
def read? (text : Text) : Option Float :=
  let (negative, magnitude) := splitSign text
  (magnitude? magnitude).map fun value => if negative then -value else value

/-- Read a natural number, with an optional plus sign, below a bound. -/
def readNatural? (bound : Nat) (text : Text) : Option Nat :=
  let digits :=
    match text with
    | '+' :: rest => rest
    | _ => text
  let value := naturalOfDigits digits
  if !digits.isEmpty && digits.all Char.isDigit && value < bound then
    some value
  else none

end Numeral
end GraphingCalculator

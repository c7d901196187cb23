/-!
# Shortest decimals

Among the decimals that round back to a floating-point number, the shortest
ones are written most often, and of those the nearest.  A number
`significand * 2 ^ exponent` is surrounded by the interval of reals that round
to it.  The points `count * 10 ^ power` for a fixed power form a grid; the
coarsest grid that meets the interval gives the fewest digits, and the two
points of the grid next to the number are the only candidates on it.
-/

namespace GraphingCalculator

/-- A positive number `significand * 2 ^ exponent`.  The gap to the number
below is half as wide as the gap to the number above when `narrowBelow`. -/
structure Dyadic where
  significand : Nat
  exponent : Int
  narrowBelow : Bool

/-- The decimal `digits * 10 ^ power`. -/
structure Decimal where
  digits : Nat
  power : Int
  deriving DecidableEq

namespace Dyadic

/-- A number and the ends of the interval that rounds to it, all as fractions
with the same denominator, on a scale where the grid is made of the whole
numbers. -/
structure Scaled where
  value : Nat
  lower : Nat
  upper : Nat
  denominator : Nat
  endsIncluded : Bool

/-- Scale a number so that the multiples of `10 ^ power` become the whole
numbers. The interval ends lie a quarter or a half of a significand step
below and a half of a step above. -/
def scale (number : Dyadic) (power : Int) : Scaled :=
  let quarterExponent := number.exponent - 2
  let factor := Nat.pow 2 quarterExponent.toNat * Nat.pow 10 (-power).toNat
  let quarters := 4 * number.significand
  { value := quarters * factor
    lower := (quarters - if number.narrowBelow then 1 else 2) * factor
    upper := (quarters + 2) * factor
    denominator :=
      Nat.pow 2 (-quarterExponent).toNat * Nat.pow 10 power.toNat
    endsIncluded := number.significand % 2 == 0 }

namespace Scaled

/-- Check whether a whole number that is not above the value rounds to it. -/
def admitsBelow (scaled : Scaled) (count : Nat) : Bool :=
  let point := count * scaled.denominator
  scaled.lower < point || (scaled.endsIncluded && scaled.lower == point)

/-- Check whether a whole number above the value rounds to it. -/
def admitsAbove (scaled : Scaled) (count : Nat) : Bool :=
  let point := count * scaled.denominator
  point < scaled.upper || (scaled.endsIncluded && point == scaled.upper)

/-- The whole number next to the value that rounds to it. Of two, the nearer
one is taken, and the upper one when both are equally near. -/
def nearest? (scaled : Scaled) : Option Nat :=
  let below := scaled.value / scaled.denominator
  let above := below + 1
  match scaled.admitsBelow below, scaled.admitsAbove above with
  | false, false => none
  | true, false => some below
  | false, true => some above
  | true, true =>
      if scaled.denominator ≤ 2 * (scaled.value % scaled.denominator) then
        some above
      else some below

/-- The whole number that is taken rounds to the value. -/
theorem admits_of_nearest?_eq_some {scaled : Scaled} {count : Nat}
    (nearest : scaled.nearest? = some count) :
    scaled.admitsBelow count = true ∨ scaled.admitsAbove count = true := by
  unfold nearest? at nearest
  dsimp only at nearest
  split at nearest
  next => simp at nearest
  next admitted _ =>
      obtain rfl := Option.some.inj nearest
      exact Or.inl admitted
  next _ admitted =>
      obtain rfl := Option.some.inj nearest
      exact Or.inr admitted
  next admittedBelow admittedAbove =>
      split at nearest
      · obtain rfl := Option.some.inj nearest
        exact Or.inr admittedAbove
      · obtain rfl := Option.some.inj nearest
        exact Or.inl admittedBelow

end Scaled

/-- A power of ten above the number and its interval. -/
def powerAbove (number : Dyadic) : Int :=
  (number.exponent + number.significand.log2 + 1) * 30103 / 100000 + 2

/-- The powers of the grids to be tried, the coarsest first. Seventeen digits
always suffice. -/
def gridPowers (number : Dyadic) : List Int :=
  (List.range 24).map fun (drop : Nat) => number.powerAbove - drop

/-- The nearest of the shortest decimals that round to the number. -/
def shortest (number : Dyadic) : Decimal :=
  let onGrid (power : Int) : Option Decimal :=
    (number.scale power).nearest?.map fun count => ⟨count, power⟩
  (number.gridPowers.findSome? onGrid).getD ⟨number.significand, 0⟩

end Dyadic
end GraphingCalculator

import GraphingCalculator.DomainError

/-!
# Numerical derivatives

The derivative of a function at a point is taken from the central difference of
fourth order,
`(-f(x + 2h) + 8 f(x + h) - 8 f(x - h) + f(x - 2h)) / 12h`.
The function has to be defined at those four points and at `x` itself.
-/

namespace GraphingCalculator
namespace Stencil

/-- The step `h` at a point.  It grows with the size of the point, and is the
fifth root of the machine precision near zero. -/
def step (x : Float) : Float :=
  let size := x.abs
  Float.pow 2.2e-16 (1.0 / 5.0) * (if size > 1 then size else 1)

/-- The value of a function at a point, or nothing where it is undefined.  An
evaluation that reaches a limit is not just undefined: its error stays. -/
def sample (f : Float → Except DomainError Float) (x : Float) :
    Except DomainError (Option Float) :=
  match f x with
  | .ok value => .ok (some value)
  | .error error => if error.isLimit then .error error else .ok none

/-- The central difference over a step, from the values of the function. -/
def difference (h farAbove above below farBelow : Float) : Float :=
  (-farAbove + 8 * above - 8 * below + farBelow) / (12 * h)

/-- The derivative of a function at a point. -/
def derivative (f : Float → Except DomainError Float) (x : Float) :
    Except DomainError Float := do
  let h := step x
  let farAbove ← sample f (x + 2 * h)
  let above ← sample f (x + h)
  let below ← sample f (x - h)
  let farBelow ← sample f (x - 2 * h)
  let center ← sample f x
  match farAbove, above, below, farBelow, center with
  | some farAbove, some above, some below, some farBelow, some _ =>
      return difference h farAbove above below farBelow
  | _, _, _, _, _ => throw .noDerivative

end Stencil
end GraphingCalculator

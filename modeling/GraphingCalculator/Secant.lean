import GraphingCalculator.Environment.Evaluation

/-!
# Roots by the secant method

Starting from two seeds, the line through the last two points of a function
gives the next abscissa, until the value there is small enough.  The search
fails where the function does, where the line is flat, or after a number of
steps.
-/

namespace GraphingCalculator

/-- Why no root was found. -/
inductive RootError
  | flatGradient
  | noConvergence (iterations : Nat)
  | domain (error : DomainError)
  deriving DecidableEq

/-- The description of an error. -/
def RootError.message : RootError → String
  | flatGradient => "no convergence (flat gradient)"
  | noConvergence iterations =>
      "failed to converge after " ++ toString iterations ++ " iterations"
  | domain error => error.message

/-- The settings of a search: the size of a value that counts as zero, the
difference of two values below which the secant is flat, the number of steps,
and the distance of the second seed from the first. -/
structure Secant where
  tolerance : Float := 1e-9
  flatGradient : Float := 1e-15
  maxIterations : Nat := 100
  seedOffset : Float := 0.1

namespace Secant

/-- Evaluate a function where a search needs it. -/
def valueAt (f : Float → Except DomainError Float) (x : Float) :
    Except RootError Float :=
  (f x).mapError .domain

/-- The abscissa where the secant through two points meets the axis. -/
def nextAbscissa (x₀ y₀ x₁ y₁ : Float) : Float :=
  x₁ - y₁ * (x₁ - x₀) / (y₁ - y₀)

/-- Search on from a point and the next abscissa, with a number of steps
left. -/
def search (settings : Secant) (f : Float → Except DomainError Float) :
    (steps : Nat) → (x₀ y₀ x₁ : Float) → Except RootError Float
  | 0, _, _, _ => .error (.noConvergence settings.maxIterations)
  | steps + 1, x₀, y₀, x₁ => do
      let y₁ ← valueAt f x₁
      if y₁.abs < settings.tolerance then return x₁
      else if (y₁ - y₀).abs < settings.flatGradient then throw .flatGradient
      else settings.search f steps x₁ y₁ (nextAbscissa x₀ y₀ x₁ y₁)

/-- Find a root of a function near a guess. -/
def solve (settings : Secant) (f : Float → Except DomainError Float)
    (guess : Float) : Except RootError Float := do
  let value ← valueAt f guess
  if value.abs < settings.tolerance then return guess
  else
    settings.search f settings.maxIterations guess value
      (guess + settings.seedOffset)

end Secant

namespace Environment

/-- The difference of two formulas at a number. -/
def difference (environment : Environment) (first second : Formula)
    (x : Float) : Except DomainError Float := do
  let firstValue ← environment.evaluate first.expression x
  let secondValue ← environment.evaluate second.expression x
  return firstValue - secondValue

/-- Find a number near a guess at which two formulas have the same value. -/
def intersection (environment : Environment) (first second : Formula)
    (guess : Float) : Except RootError Float :=
  Secant.solve {} (environment.difference first second) guess

end Environment
end GraphingCalculator

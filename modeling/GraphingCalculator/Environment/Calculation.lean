import GraphingCalculator.CalculationError
import GraphingCalculator.Environment.Compilation
import GraphingCalculator.Environment.Evaluation

/-!
# Calculating in one step

A source is compiled and evaluated at once.
-/

namespace GraphingCalculator
namespace Environment

/-- The value of a source at a number. -/
def calculate (environment : Environment) (source : Text) (x : Float) :
    Except CalculationError Float := do
  let formula ← (environment.compile source).mapError .inSource
  (environment.evaluate formula.expression x).mapError .inEvaluation

end Environment
end GraphingCalculator

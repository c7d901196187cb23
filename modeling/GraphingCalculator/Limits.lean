/-!
# Limits

Definitions can call each other in circles, and every derivative evaluates its
operand five times, so that the nesting of calls and the nesting of derivatives
are both bounded.  The size of a compiled expression is bounded too.
-/

namespace GraphingCalculator

/-- Bounds on the compilation and the evaluation of expressions. -/
structure Limits where
  /-- Calls of user functions inside each other during an evaluation. -/
  callDepth : Nat := 32
  /-- Derivatives inside each other during an evaluation, counted through the
  calls of user functions. -/
  derivativeDepth : Nat := 4
  /-- Applications of functions inside each other in an expression. -/
  expressionDepth : Nat := 256
  /-- Tokens of an expression. -/
  expressionLength : Nat := 1024
  deriving DecidableEq

end GraphingCalculator

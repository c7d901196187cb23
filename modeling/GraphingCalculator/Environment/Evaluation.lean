import GraphingCalculator.Environment.Basic
import GraphingCalculator.Operator.Arithmetic
import GraphingCalculator.Stencil

/-!
# Evaluating expressions

An expression is evaluated at a number, from left to right, and the first error
ends it.  Constants and functions of the user are looked up by name.  Two
budgets bound the evaluation: the calls of user functions and the derivatives
that may still be entered inside those already under way.  A definition that
calls itself runs out of calls, so that every evaluation ends.
-/

namespace GraphingCalculator

/-- Evaluate an expression at a number.  Calls of user functions are answered
by `answer`, from the name, the argument and the derivatives left. -/
def Expression.evaluateWith (environment : Environment)
    (answer : Text → Float → Nat → Except DomainError Float) :
    Expression → (derivatives : Nat) → Float → Except DomainError Float
  | .freeVariable, _, x => .ok x
  | .value number, _, _ => .ok number
  | .constant name, _, _ =>
      match environment.constant? name with
      | some number => .ok number
      | none => .error (.undefined name)
  | .binary operator left right, derivatives, x => do
      let first ← left.evaluateWith environment answer derivatives x
      let second ← right.evaluateWith environment answer derivatives x
      operator.apply first second
  | .apply function argument, derivatives, x => do
      let operand ← argument.evaluateWith environment answer derivatives x
      function.apply operand
  | .call name argument, derivatives, x => do
      let operand ← argument.evaluateWith environment answer derivatives x
      answer name operand derivatives
  | .derivative _, 0, _ =>
      .error (.derivativeLimit environment.limits.derivativeDepth)
  | .derivative operand, derivatives + 1, x => do
      let slope ← Stencil.derivative
        (fun point => operand.evaluateWith environment answer derivatives point)
        x
      requireFinite derivativeName x slope

namespace Environment

/-- Call a user function while a number of nested calls is left. -/
def call (environment : Environment) :
    (calls : Nat) → Text → Float → Nat → Except DomainError Float
  | calls, name, operand, derivatives =>
      match environment.function? name with
      | none => .error (.undefined name)
      | some formula =>
          match calls with
          | 0 => .error (.recursionLimit environment.limits.callDepth)
          | calls + 1 => do
              let result ← formula.expression.evaluateWith environment
                (environment.call calls) derivatives operand
              requireFinite name operand result

/-- Evaluate an expression within given budgets. -/
def evaluateWithin (environment : Environment) (calls derivatives : Nat)
    (expression : Expression) (x : Float) : Except DomainError Float :=
  expression.evaluateWith environment (environment.call calls) derivatives x

/-- Evaluate an expression at a number. -/
def evaluate (environment : Environment) (expression : Expression)
    (x : Float) : Except DomainError Float :=
  environment.evaluateWithin environment.limits.callDepth
    environment.limits.derivativeDepth expression x

end Environment
end GraphingCalculator

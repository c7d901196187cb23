import GraphingCalculator.DomainError
import GraphingCalculator.Operator

/-!
# Arithmetic with domains

Operators and built-in functions on floating-point numbers.  Division by zero
and powers without a finite value are errors, and so are arguments outside of
the domain of a function and values of a function that are not finite.
-/

namespace GraphingCalculator

/-- Apply an operator. -/
def Operator.apply (operator : Operator) (left right : Float) :
    Except DomainError Float :=
  match operator with
  | plus => .ok (left + right)
  | minus => .ok (left - right)
  | times => .ok (left * right)
  | divide =>
      if right == 0 then .error .divisionByZero else .ok (left / right)
  | power =>
      let result := Float.pow left right
      if result.isFinite then .ok result
      else .error (.invalidPower left right)

/-- Accept the finite value of a function at a number. -/
def requireFinite (function : Text) (operand result : Float) :
    Except DomainError Float :=
  if result.isFinite then .ok result
  else .error (.invalidResult function operand)

/-- Apply a built-in function. -/
def BuiltinFunction.apply (function : BuiltinFunction) (operand : Float) :
    Except DomainError Float :=
  if function.domain.contains operand then
    requireFinite function.name operand (function.value operand)
  else .error (.outOfDomain function operand)

end GraphingCalculator

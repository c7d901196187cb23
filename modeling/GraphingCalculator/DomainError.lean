import GraphingCalculator.Builtin
import GraphingCalculator.Decimal.Positional

/-!
# Errors of an evaluation

An expression can fail at some numbers and succeed at others.  Two of the
errors say that a limit was reached; these end the whole evaluation, and
nothing inside of it recovers from them.
-/

namespace GraphingCalculator

/-- Why an expression has no value at some number. -/
inductive DomainError
  | divisionByZero
  | invalidPower (base exponent : Float)
  | outOfDomain (function : BuiltinFunction) (operand : Float)
  | invalidResult (function : Text) (operand : Float)
  | noDerivative
  | undefined (name : Text)
  | recursionLimit (limit : Nat)
  | derivativeLimit (limit : Nat)
  deriving DecidableEq

namespace DomainError

/-- Check whether an error comes from a limit, and not from the expression. -/
def isLimit : DomainError → Bool
  | recursionLimit _ | derivativeLimit _ => true
  | _ => false

/-- The application of a function to a number. -/
def application (function : Text) (operand : Float) : String :=
  String.ofList (function ++ '(' :: showNumber operand ++ [')'])

/-- The description of an error. -/
def message : DomainError → String
  | divisionByZero => "division by zero"
  | invalidPower base exponent =>
      "invalid power operation result: " ++
        String.ofList (showNumber base ++ '^' :: showNumber exponent)
  | outOfDomain function operand =>
      "domain error: " ++ application function.name operand ++ " - " ++
        function.domain.refusal
  | invalidResult function operand =>
      "domain error: " ++ application function operand ++
        " produced an invalid result"
  | noDerivative => "derivative does not exist at this point"
  | undefined name => "unknown identifier: " ++ String.ofList name
  | recursionLimit limit =>
      "recursion limit of " ++ toString limit ++ " nested calls exceeded"
  | derivativeLimit limit =>
      "derivatives nested deeper than " ++ toString limit ++ " levels"

end DomainError
end GraphingCalculator

import GraphingCalculator.DomainError
import GraphingCalculator.SyntaxError

/-!
# Errors in definitions

A definition can be refused for its shape, for its name, or for the expression
that it gives.  In the last case the error that was found in the expression is
its source.
-/

namespace GraphingCalculator

/-- What is wrong with the spaces around a defined name. -/
inductive SpacingFault
  | severalBeforeEquals
  | insideName
  deriving DecidableEq

/-- The words that describe a fault. -/
def SpacingFault.message : SpacingFault → String
  | severalBeforeEquals => "only one space allowed before '='"
  | insideName => "identifier cannot contain spaces"

/-- Why a definition or a renaming is refused. -/
inductive DefinitionError
  | malformed (fault : SpacingFault) (position : Nat)
  | missingEquals
  | emptyName
  | invalidIdentifier (name : Text)
  | reservedVariable
  | builtinFunction (name : Text)
  | builtinConstant (name : Text)
  | duplicateFunction (name : Text)
  | duplicateConstant (name : Text)
  | notDefined (name : Text)
  | invalidExpression (error : SyntaxError)
  | invalidConstant (error : DomainError)
  deriving DecidableEq

namespace DefinitionError

/-- The description of an error. -/
def message : DefinitionError → String
  | malformed fault position =>
      fault.message ++ " at position " ++ toString position
  | missingEquals => "missing '=' in definition"
  | emptyName => "empty name in definition"
  | invalidIdentifier name =>
      "invalid identifier name: " ++ String.ofList name
  | reservedVariable => "cannot redefine variable 'x'"
  | builtinFunction name =>
      "cannot redefine built-in function: " ++ String.ofList name
  | builtinConstant name =>
      "cannot redefine built-in constant: " ++ String.ofList name
  | duplicateFunction name =>
      "function " ++ String.ofList name ++ " is already defined"
  | duplicateConstant name =>
      "constant " ++ String.ofList name ++ " is already defined"
  | notDefined name => String.ofList name ++ " is not defined"
  | invalidExpression error =>
      "invalid expression in definition: " ++ error.message
  | invalidConstant error =>
      "invalid constant definition: " ++ error.message

/-- The descriptions of the errors behind an error. -/
def sources : DefinitionError → List String
  | invalidExpression error => [error.message]
  | invalidConstant error => [error.message]
  | _ => []

/-- The same error in a text where the expression begins `offset` bytes
in. -/
def shiftExpression (offset : Nat) : DefinitionError → DefinitionError
  | invalidExpression error => invalidExpression (error.shift offset)
  | other => other

end DefinitionError
end GraphingCalculator

import GraphingCalculator.Builtin
import GraphingCalculator.Name
import GraphingCalculator.Operator

/-!
# Expressions

An expression of the single free variable is a tree.  Built-in constants are
values from the start, while constants and functions defined by the user keep
their names, and are looked up whenever the expression is evaluated.
-/

namespace GraphingCalculator

/-- An expression of the free variable. -/
inductive Expression
  | freeVariable
  | value (number : Float)
  | constant (name : Text)
  | binary (operator : Operator) (left right : Expression)
  | apply (function : BuiltinFunction) (argument : Expression)
  | call (name : Text) (argument : Expression)
  | derivative (operand : Expression)
  deriving DecidableEq

namespace Expression

/-- The number that an expression consists of. -/
def value? : Expression → Option Float
  | value number => some number
  | _ => none

/-- Check whether an expression reads the free variable.  A derivative always
does. -/
def usesVariable : Expression → Bool
  | freeVariable | derivative _ => true
  | value _ | constant _ => false
  | binary _ left right => left.usesVariable || right.usesVariable
  | apply _ argument | call _ argument => argument.usesVariable

/-- Check whether an expression refers to a definition of the user. -/
def references (name : Text) : Expression → Bool
  | freeVariable | value _ => false
  | constant other => other = name
  | binary _ left right => left.references name || right.references name
  | call function argument => function = name || argument.references name
  | apply _ argument | derivative argument => argument.references name

/-- A name after a renaming. -/
def renameName (old new name : Text) : Text :=
  if name = old then new else name

/-- The expression with every reference to `old` turned to `new`. -/
def rename (old new : Text) : Expression → Expression
  | freeVariable => freeVariable
  | value number => value number
  | constant name => constant (renameName old new name)
  | binary operator left right =>
      binary operator (left.rename old new) (right.rename old new)
  | apply function argument => apply function (argument.rename old new)
  | call name argument =>
      call (renameName old new name) (argument.rename old new)
  | derivative operand => derivative (operand.rename old new)

end Expression
end GraphingCalculator

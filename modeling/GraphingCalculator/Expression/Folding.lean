import GraphingCalculator.Expression.Basic
import GraphingCalculator.Operator.Arithmetic

/-!
# Folding constants

Parts of an expression without variables and names are replaced by their
values.  A part is folded only when it has a value: `1/0` stays a division, and
fails when it is evaluated.
-/

namespace GraphingCalculator
namespace Expression

/-- An operator between two folded operands, folded if it has a value. -/
def foldBinary (operator : Operator) (left right : Expression) : Expression :=
  match left, right with
  | value first, value second =>
      match operator.apply first second with
      | .ok result => value result
      | .error _ => binary operator left right
  | _, _ => binary operator left right

/-- A built-in function of a folded argument, folded if it has a value. -/
def foldApply (function : BuiltinFunction) (argument : Expression) :
    Expression :=
  match argument with
  | value operand =>
      match function.apply operand with
      | .ok result => value result
      | .error _ => apply function argument
  | _ => apply function argument

/-- The expression with its constant parts folded, from the leaves up. -/
def fold : Expression → Expression
  | freeVariable => freeVariable
  | value number => value number
  | constant name => constant name
  | binary operator left right => foldBinary operator left.fold right.fold
  | apply function argument => foldApply function argument.fold
  | call name argument => call name argument.fold
  | derivative operand => derivative operand.fold

end Expression
end GraphingCalculator

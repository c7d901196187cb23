import GraphingCalculator.Expression.Basic
import GraphingCalculator.Source.Identifiers

/-!
# Formulas

A formula is an expression together with the source it was compiled from.
Renaming a definition changes both.
-/

namespace GraphingCalculator

/-- A source and the expression that it stands for. -/
structure Formula where
  source : Text
  expression : Expression
  deriving DecidableEq

namespace Formula

/-- Check whether a formula depends on the free variable.  One that does not
is a constant. -/
def usesVariable (formula : Formula) : Bool :=
  formula.expression.usesVariable

/-- Check whether a formula refers to a definition of the user. -/
def references (name : Text) (formula : Formula) : Bool :=
  formula.expression.references name

/-- The formula with every reference to `old` turned to `new`. -/
def rename (old new : Text) (formula : Formula) : Formula :=
  { source := renameIdentifier old new formula.source
    expression := formula.expression.rename old new }

end Formula
end GraphingCalculator

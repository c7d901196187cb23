import GraphingCalculator.DefinitionError

/-!
# Errors of a calculation

A calculation that starts from a text can fail in the text, in a definition, or
in the evaluation.
-/

namespace GraphingCalculator

/-- Why a calculation has no result. -/
inductive CalculationError
  | inSource (error : SyntaxError)
  | inEvaluation (error : DomainError)
  | inDefinition (error : DefinitionError)
  deriving DecidableEq

namespace CalculationError

/-- The description of an error. -/
def message : CalculationError → String
  | inSource error => error.message
  | inEvaluation error => error.message
  | inDefinition error => error.message

end CalculationError
end GraphingCalculator

import GraphingCalculator.Text.Basic

/-!
# Names

Definitions are named by a lowercase letter followed by lowercase letters and
digits, all of them ASCII.  Two words are kept by the language itself: the free
variable and the derivative.
-/

namespace GraphingCalculator

/-- The free variable of every expression. -/
def variableName : Text := ['x']

/-- The operator that takes the derivative of its operand. -/
def derivativeName : Text := ['d', '/', 'd', 'x']

/-- Check whether a character can stand inside a name, after its first
letter. -/
def isNameCharacter (character : Char) : Bool :=
  character.isLower || character.isDigit

/-- Check whether a text is a name. -/
def isIdentifier : Text → Bool
  | [] => false
  | first :: rest => first.isLower && rest.all isNameCharacter

theorem ne_nil_of_isIdentifier {name : Text}
    (identifier : isIdentifier name = true) : name ≠ [] := by
  rintro rfl
  simp [isIdentifier] at identifier

end GraphingCalculator

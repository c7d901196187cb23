import GraphingCalculator.Name
import GraphingCalculator.Operator

/-!
# Tokens

A token is a piece of a source together with the part it plays and the place
where it was found.
-/

namespace GraphingCalculator

/-- The part that a token plays in an expression. -/
inductive Token.Kind
  | number
  | operator (operator : Operator)
  | function
  | openParen
  | closeParen
  | freeVariable
  | constant
  deriving DecidableEq

/-- A piece of a source.  The position is the byte offset of its first
character. -/
structure Token where
  kind : Token.Kind
  text : Text
  position : Nat
  deriving DecidableEq

namespace Token.Kind

/-- Check whether a kind is one of the operators. -/
def isOperator : Kind → Bool
  | operator _ => true
  | _ => false

/-- Check whether a kind is a whole operand by itself. -/
def isAtom : Kind → Bool
  | number | freeVariable | constant => true
  | _ => false

/-- Check whether an operand can begin with a token of this kind. -/
def beginsOperand : Kind → Bool
  | number | freeVariable | constant | function | openParen => true
  | _ => false

end Token.Kind

namespace Token

/-- The multiplication between two operands that are written side by side. -/
def impliedProduct (position : Nat) : Token :=
  ⟨.operator .times, [Operator.times.toChar], position⟩

/-- The zero that a leading minus subtracts from. -/
def impliedZero (position : Nat) : Token :=
  ⟨.number, ['0'], position⟩

end Token
end GraphingCalculator

import GraphingCalculator.Text.Basic

/-!
# Errors in the text of an expression

Each error has a cause and the byte offset of the character to blame.
-/

namespace GraphingCalculator

/-- What is wrong with the text of an expression. -/
inductive SyntaxCause
  | containsEquals
  | emptyExpression
  | unmatchedClosing
  | unclosed
  | consecutiveOperators
  | trailingOperator
  | invalidCharacter
  | multiplePoints
  | invalidNumber
  | adjacentNumbers
  | unknownIdentifier (name : Text)
  | tooLong
  | noTokens
  | functionWithoutParenthesis
  | emptyParentheses
  | operatorAfterOpening
  | operandAfterClosing
  | leadingOperator
  | finalOperator
  | tooDeep
  | missingOperand
  | leftoverOperand
  | leftoverParenthesis
  deriving DecidableEq

/-- The words that describe a cause. -/
def SyntaxCause.message : SyntaxCause → String
  | containsEquals => "definitions must be processed separately"
  | emptyExpression => "empty expression"
  | unmatchedClosing => "unmatched closing parenthesis"
  | unclosed => "unclosed parenthesis"
  | consecutiveOperators => "consecutive operators"
  | trailingOperator => "trailing operator"
  | invalidCharacter => "invalid character"
  | multiplePoints => "multiple decimal points in number"
  | invalidNumber => "invalid number format"
  | adjacentNumbers => "missing operator between numbers"
  | unknownIdentifier name => "unknown identifier: " ++ String.ofList name
  | tooLong => "expression is too long"
  | noTokens => "empty token sequence"
  | functionWithoutParenthesis =>
      "missing opening parenthesis after function"
  | emptyParentheses => "empty parentheses"
  | operatorAfterOpening => "operator after opening parenthesis"
  | operandAfterClosing => "missing operator after closing parenthesis"
  | leadingOperator => "expression cannot start with operator"
  | finalOperator => "expression cannot end with operator"
  | tooDeep => "expression is nested too deeply"
  | missingOperand => "not enough operands"
  | leftoverOperand => "incorrect number of values in final stack"
  | leftoverParenthesis => "parenthesis left after conversion to postfix"

/-- An error in the text of an expression. -/
structure SyntaxError where
  cause : SyntaxCause
  position : Nat
  deriving DecidableEq

namespace SyntaxError

/-- The description of an error, with its position. -/
def message (error : SyntaxError) : String :=
  error.cause.message ++ " at position " ++ toString error.position

/-- The same error in a text that begins `offset` bytes earlier. -/
def shift (offset : Nat) (error : SyntaxError) : SyntaxError :=
  { error with position := error.position + offset }

end SyntaxError
end GraphingCalculator
